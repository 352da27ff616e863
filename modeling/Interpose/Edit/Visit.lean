import Interpose.Edit.Chunks
import Interpose.Script.Node

/-!
What a visitor does at one node: it looks at the node's current text, replaces it, panics, or is
done. The current text shows all earlier updates, those of the node's parts among them.
-/

set_option autoImplicit false

namespace Interpose.Edit
open Script

inductive Visit (σ : Type) where
  | done (state : σ)
  | look (next : String → Visit σ)
  | update (text : String) (next : Visit σ)
  | panic (message : String)

abbrev Visitor (σ : Type) := Node → σ → Visit σ

variable {σ : Type}

def Visit.run (first stop : Nat) : Visit σ → Chunks → Except String (σ × Chunks)
  | done state, chunks => .ok (state, chunks)
  | look next, chunks => (next (.ofList (chunks.read first stop))).run first stop chunks
  | update text next, chunks => next.run first stop (chunks.write first stop text.toList)
  | panic message, _ => .error message

def visitNodes (visit : Visitor σ) : List Node → σ → Chunks → Except String (σ × Chunks)
  | [], state, chunks => .ok (state, chunks)
  | node :: nodes, state, chunks =>
    match (visit node state).run node.span.start.offset node.span.stop.offset chunks with
    | .ok (state, chunks) => visitNodes visit nodes state chunks
    | .error message => .error message

end Interpose.Edit
