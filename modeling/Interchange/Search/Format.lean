import Interchange.Json.Format
import Interchange.Search

/-!
# Search settings as JSON

Each setting may be left out and then has its usual value.
-/

namespace Interchange

/-- The format of the settings of a search. -/
def SearchConfig.format : Format SearchConfig :=
  (((Record.fieldOr "definitive_min_time" Format.bool SearchConfig.default.definitiveMinTime).and
    (.fieldOr "abort_after_normal_trips" (Format.natural Decimal.wordBound)
      SearchConfig.default.abortAfter)).map
    (fun (definitiveMinTime, abortAfter) => { definitiveMinTime, abortAfter })
    (fun c => (c.definitiveMinTime, c.abortAfter))).format

end Interchange
