import Stencil.Command.Arithmetic
import Stencil.Command.Binding
import Stencil.Command.Block
import Stencil.Command.Element
import Stencil.Command.Figures
import Stencil.Command.Fragment
import Stencil.Command.Insertion
import Stencil.Command.Loop
/-!
The commands that every renderer knows.
-/

namespace Stencil

def Handler.builtins : List Handler :=
  [insertion, conditional, loop, closing, push, pop, cursor, fragment, picture, joined, date,
    timeOfDay, number, counter, concatenation, calculation, ignored, definition, copy]

def Registry.builtin : Registry := ofList Handler.builtins

end Stencil
