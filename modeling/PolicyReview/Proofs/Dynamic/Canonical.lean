import PolicyReview.Proofs.Dynamic.Read
import PolicyReview.Proofs.Structured.Readers

/-!
# Canonical texts of dynamic values

A value whose words are finite is written, and its text is read as the normal form of the value
unless the value is deeper than the nesting limit.  A value that was read is normal and not too
deep, so its text is read as the value itself and is the canonical text of every text that is read
as the value.
-/

namespace PolicyReview
namespace Dynamic

variable {value : Dynamic}

/-- A value has no text exactly when one of its words is not finite. -/
theorem exists_text_eq_error_iff :
    (∃ error, value.text = .error error) ↔ ∃ word ∈ value.words, word.isFinite = false := by
  constructor
  · rintro ⟨error, failed⟩
    by_contra none_infinite
    have finite : value.AllFinite := by simpa [AllFinite] using none_infinite
    obtain ⟨image, image_eq⟩ := Structured.exists_image?_iff.mpr finite
    rw [Structured.text_of_image? image_eq] at failed
    cases failed
  · rintro ⟨word, word_mem, infinite⟩
    cases first : value.firstNonFinite? with
    | some word => exact ⟨_, text_eq_error first⟩
    | none =>
      have finite := (firstNonFinite?_eq_none_iff value).mp first word word_mem
      rw [infinite] at finite
      cases finite

/-- A text is always that of the image. -/
theorem exists_image?_of_text_eq_ok {text : String} (written : value.text = .ok text) :
    ∃ image, Structured.image? value = some image ∧ image.text = text := by
  have finite : value.AllFinite := by
    rw [← firstNonFinite?_eq_none_iff, Option.eq_none_iff_forall_ne_some]
    intro word first
    rw [text_eq_error first] at written
    cases written
  obtain ⟨image, image_eq⟩ := Structured.exists_image?_iff.mpr finite
  rw [Structured.text_of_image? image_eq] at written
  exact ⟨image, image_eq, Except.ok.inj written⟩

section RoundTrip

variable {image : Structured}

/-- The text of a sorted value is read as the normal form of the value, or refused at the first
bracket beyond the limit. -/
theorem ofText_text_of_image? (ordered : value.Ordered)
    (image_eq : Structured.image? value = some image) :
    ofText image.text =
      Json.withinBudget (image.document.overflow? Json.nestingLimit []) value.normal := by
  rw [ofText_eq_map, Structured.ofText_text (Structured.ordered_of_image? image_eq ordered),
    ← Structured.toDynamic_of_image? image_eq]
  cases image.document.overflow? Json.nestingLimit [] <;> rfl

theorem ofText_text_eq_ok (ordered : value.Ordered)
    (image_eq : Structured.image? value = some image) (depth_le : value.depth ≤ 127) :
    ofText image.text = .ok value.normal := by
  rw [← Structured.depth_eq_of_image? image_eq, ← Structured.depth_document] at depth_le
  rw [ofText_text_of_image? ordered image_eq]
  exact Json.Document.withinBudget_of_depth_le depth_le _ _

theorem ofText_text_tooDeep (ordered : value.Ordered)
    (image_eq : Structured.image? value = some image) (deep : 127 < value.depth) :
    ∃ remaining, ofText image.text = .error (.tooDeep remaining) := by
  rw [← Structured.depth_eq_of_image? image_eq, ← Structured.depth_document] at deep
  rw [ofText_text_of_image? ordered image_eq]
  exact Json.Document.exists_withinBudget_eq_tooDeep deep _ _

end RoundTrip

/-- Writing fails exactly at words that are not finite, and reading undoes writing up to normal form
and within the nesting limit. -/
theorem text_round_trip (value : Dynamic) (ordered : value.Ordered) :
    ((∃ error, value.text = .error error) ↔ ∃ word ∈ value.words, word.isFinite = false) ∧
    ∀ text, value.text = .ok text →
      ((∃ read, ofText text = .ok read) ↔ value.depth ≤ 127) ∧
      (∀ read, ofText text = .ok read → read = value.normal) ∧
      (127 < value.depth → ∃ remaining, ofText text = .error (.tooDeep remaining)) := by
  refine ⟨exists_text_eq_error_iff, fun text written => ?_⟩
  obtain ⟨image, image_eq, rfl⟩ := exists_image?_of_text_eq_ok written
  have refused := ofText_text_tooDeep ordered image_eq
  by_cases depth_le : value.depth ≤ 127
  · have read_eq := ofText_text_eq_ok ordered image_eq depth_le
    refine ⟨iff_of_true ⟨_, read_eq⟩ depth_le, fun read read_ok => ?_, refused⟩
    rw [read_eq] at read_ok
    exact (Except.ok.inj read_ok).symm
  · obtain ⟨remaining, tooDeep⟩ := refused (Nat.not_le.mp depth_le)
    have not_read (read : Dynamic) : ofText image.text ≠ .ok read := by simp [tooDeep]
    exact ⟨iff_of_false (fun ⟨read, read_ok⟩ => not_read read read_ok) depth_le,
      fun read read_ok => absurd read_ok (not_read read), refused⟩

/-- Of two unsigned integers the small one becomes signed; a negative zero stays one. -/
theorem text_round_trip_of_four_items :
    ∃ text, (list [.uint 5, .uint 0xFFFFFFFFFFFFFFFF, .float (Binary64.zero true),
        .map [("a", .int (-3)), ("b", .list [])]]).text = .ok text ∧
      ofText text = .ok (.list [.int 5, .uint 0xFFFFFFFFFFFFFFFF, .float (Binary64.zero true),
        .map [("a", .int (-3)), ("b", .list [])]]) := by
  obtain ⟨error_iff, reads⟩ := text_round_trip
    (.list [.uint 5, .uint 0xFFFFFFFFFFFFFFFF, .float (Binary64.zero true),
      .map [("a", .int (-3)), ("b", .list [])]])
    ⟨trivial, trivial, trivial, ⟨List.pairwise_pair.mpr (by decide), trivial, trivial, trivial⟩,
      trivial⟩
  cases written : (list [.uint 5, .uint 0xFFFFFFFFFFFFFFFF, .float (Binary64.zero true),
      .map [("a", .int (-3)), ("b", .list [])]]).text with
  | error error =>
    obtain ⟨word, word_mem, infinite⟩ := error_iff.mp ⟨error, written⟩
    obtain rfl : word = Binary64.zero true := by
      simpa [words, itemsWords, entriesWords] using word_mem
    cases infinite
  | ok text =>
    obtain ⟨read_iff, read_eq, _⟩ := reads text written
    obtain ⟨read, read_ok⟩ := read_iff.mpr (by decide)
    obtain rfl := read_eq read read_ok
    exact ⟨text, rfl, read_ok⟩

/-- A value that is read is the conversion of what is read as a structured value. -/
theorem exists_toDynamic_of_ofText {text : String} (text_read : ofText text = .ok value) :
    ∃ structured, Structured.ofText text = .ok structured ∧ structured.toDynamic = value := by
  rw [ofText_eq_map] at text_read
  exact exists_of_map_eq_ok text_read

/-- A value that is read is normal. -/
theorem normal_eq_self_of_ofText {text : String} (text_read : ofText text = .ok value) :
    value.normal = value := by
  obtain ⟨structured, _, rfl⟩ := exists_toDynamic_of_ofText text_read
  exact (Structured.toDynamic_of_image? structured.image?_toDynamic).symm

/-- A value that is read has a text, which is read as the value. -/
theorem exists_text_of_ofText {text : String} (text_read : ofText text = .ok value) :
    ∃ image, Structured.image? value = some image ∧ value.text = .ok image.text ∧
      ofText image.text = .ok value := by
  have fits : value.Fits 127 := (read_yields 127).of_readAll text_read
  obtain ⟨image, image_eq⟩ := Structured.exists_image?_iff.mpr fits.finite
  refine ⟨image, image_eq, Structured.text_of_image? image_eq, ?_⟩
  rw [ofText_text_eq_ok fits.ordered image_eq fits.depth_le, normal_eq_self_of_ofText text_read]

/-- The canonical text of a text: the text of the value that it is read as. -/
def canonicalText? (text : String) : Option String :=
  (ofText text).toOption.bind fun value => value.text.toOption

theorem canonicalText?_eq_some {text canonical : String} (text_read : ofText text = .ok value)
    (written : value.text = .ok canonical) : canonicalText? text = some canonical := by
  simp only [canonicalText?, text_read, Except.toOption, Option.bind_some, written]

/-- A text that is read has a canonical text: its names increase, no blank stands outside of its
literals, it is read as the same value, and it is its own canonical text. -/
theorem canonical_text_of_ofText (text : String) (value : Dynamic)
    (text_read : ofText text = .ok value) :
    value.AllFinite ∧ value.depth ≤ 127 ∧
    ∃ canonical, value.text = .ok canonical ∧ canonicalText? text = some canonical ∧
      (∃ document, Json.Document.ofText canonical = .ok document ∧ document.text = canonical ∧
        document.NamesIncrease) ∧
      (∀ c ∈ Json.outsideLiterals .outside canonical.toList, Text.isBlankChar c = false) ∧
      ofText canonical = .ok value ∧ canonicalText? canonical = some canonical := by
  have fits : value.Fits 127 := (read_yields 127).of_readAll text_read
  obtain ⟨image, image_eq, written, read_back⟩ := exists_text_of_ofText text_read
  have depth_le : image.document.depth ≤ 127 := by
    rw [Structured.depth_document, Structured.depth_eq_of_image? image_eq]
    exact fits.depth_le
  have names_increase : image.document.NamesIncrease :=
    Structured.namesIncrease_document (Structured.ordered_of_image? image_eq fits.ordered)
  exact ⟨fits.finite, fits.depth_le, image.text, written,
    canonicalText?_eq_some text_read written,
    ⟨image.document, Json.Document.ofText_text depth_le, rfl, names_increase⟩,
    image.document.compact_text, read_back, canonicalText?_eq_some read_back written⟩

/-- A name that is repeated by an escape, an integer beyond sixty-four bits, a negative zero and an
exponent. -/
theorem canonical_text_of_repeated_name :
    ∃ value, ofText
        "\x7b\"b\": 1e2, \"a\": 0, \"\\u0061\": [18446744073709551616, -0]\x7d" = .ok value ∧
      value.text = .ok "\x7b\"a\":[1.8446744073709552e+19,-0.0],\"b\":100.0\x7d" ∧
      ofText "\x7b\"a\":[1.8446744073709552e+19,-0.0],\"b\":100.0\x7d" = .ok value := by
  have computed : canonicalText?
      "\x7b\"b\": 1e2, \"a\": 0, \"\\u0061\": [18446744073709551616, -0]\x7d" =
        some "\x7b\"a\":[1.8446744073709552e+19,-0.0],\"b\":100.0\x7d" := by
    decide +kernel
  cases text_read : ofText
      "\x7b\"b\": 1e2, \"a\": 0, \"\\u0061\": [18446744073709551616, -0]\x7d" with
  | error error =>
    rw [canonicalText?, text_read] at computed
    cases computed
  | ok value =>
    obtain ⟨_, _, canonical, written, canonical_eq, _, _, read_back, _⟩ :=
      canonical_text_of_ofText _ value text_read
    obtain rfl := Option.some.inj (canonical_eq.symm.trans computed)
    exact ⟨value, rfl, written, read_back⟩

end Dynamic
end PolicyReview
