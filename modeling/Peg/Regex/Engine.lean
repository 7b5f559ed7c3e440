import Peg.Regex.Footprint.Limit
import Peg.Regex.Pattern
import Peg.Regex.Reader
import Peg.Regex.Search

/-!
# A library of regular expressions

Texts are read, turned into programs, and searched with these. What is too large is refused.
-/

namespace Peg

abbrev Regex.engine (fits : Re → Bool) : RegexLibrary where
  compile? text := ((read? text.toList).filter fits).map fun r =>
    let p := r.program
    p.search

instance : RegexLibrary :=
  Regex.engine Re.fits

end Peg
