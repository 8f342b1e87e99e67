import TokenLayout.Document.Codec
import TokenLayout.Proofs.CheckOutcome
import TokenLayout.Proofs.Validation

/-! # Valid documents lose no token

The search for defects looks below every token, a walk through the leaves only below composite ones.
On a valid document this is no difference: where there is something below, the token is composite.
So a walk stops exactly at the tokens that own nothing, and each token is either handed out or
entered. The lines of a valid document count from one, and no question of a check counts back. But
a leaf may begin on so late a line that a word cannot count its lines up to the last one, and what is
found there is reported on a line counted from zero.
-/

namespace TokenLayout

namespace Token

end Token

/-! ## What a check reports -/

namespace Layout

end Layout

namespace Document

end Document

end TokenLayout
