import PolicyReview.Proofs.Json.Line
import PolicyReview.Proofs.Outcome
import PolicyReview.Proofs.Record.Finding
import PolicyReview.Proofs.Structured.Encoding
import PolicyReview.Review.Rendering

/-!
# Rendered violations

Rendering fails at the first violation that cannot be written, and there is none: each violation is
one line of the rendered text, and the line holds no other control character.  A line is read back
as its violation unless the metadata is as deep as the nesting limit: such metadata can be encoded,
but the object around it is one level too many for the reader.
-/

namespace PolicyReview

/-- The lines of a text, each without the line break that ends it. -/
def linesOf (text : String) : List String :=
  (text.toList.splitOn '\n').dropLast.map String.ofList

variable {violations : List Violation}

section LinesFrom

variable {write : Violation → Except NonFinite String}

/-- Where every violation can be written, the text is made of what is written. -/
theorem linesFrom_eq_ok {lines : List String}
    (written : List.Forall₂ (fun violation line => write violation = .ok line) violations lines)
    (index : Nat) :
    linesFrom write index violations = .ok (String.join (lines.map (· ++ "\n"))) := by
  induction written generalizing index with
  | nil => rfl
  | cons line_eq _ ih =>
    rw [linesFrom, line_eq, ih, List.map_cons, String.join_cons]
    rfl

/-- The first violation that cannot be written is the error, with its position and its
constraint. -/
theorem linesFrom_eq_error {before after : List Violation} {violation : Violation}
    {source : NonFinite} (written : ∀ earlier ∈ before, ∃ line, write earlier = .ok line)
    (refused : write violation = .error source) (index : Nat) :
    linesFrom write index (before ++ violation :: after) =
      .error ⟨index + before.length, violation.constraint, source⟩ := by
  induction before generalizing index with
  | nil =>
    rw [List.nil_append, linesFrom, refused]
    rfl
  | cons first before ih =>
    obtain ⟨⟨line, line_eq⟩, others⟩ := List.forall_mem_cons.mp written
    rw [List.cons_append, linesFrom, line_eq, ih others, List.length_cons, Nat.add_right_comm,
      Nat.add_assoc]
    rfl

theorem linesFrom_eq_error_iff {index : Nat} {error : LineError} :
    linesFrom write index violations = .error error ↔
      ∃ before violation after source, violations = before ++ violation :: after ∧
        (∀ earlier ∈ before, ∃ line, write earlier = .ok line) ∧
        write violation = .error source ∧
        error = ⟨index + before.length, violation.constraint, source⟩ := by
  constructor
  · intro failed
    rcases forall_or_first (fun violation => ∃ line, write violation = .ok line) violations with
      written | ⟨before, violation, after, rfl, written, notWritten⟩
    · obtain ⟨lines, each⟩ := exists_forall₂ written
      cases (linesFrom_eq_ok each index).symm.trans failed
    · cases refused : write violation with
      | ok line => exact absurd ⟨line, refused⟩ notWritten
      | error source =>
        cases (linesFrom_eq_error written refused index).symm.trans failed
        exact ⟨before, violation, after, source, rfl, written, refused, rfl⟩
  · rintro ⟨before, violation, after, source, rfl, written, refused, rfl⟩
    exact linesFrom_eq_error written refused index

end LinesFrom

/-- The documents of the violations, one to a line. -/
def joinedLines (violations : List Violation) : String :=
  String.join (violations.map fun violation => violation.document.text ++ "\n")

/-- Rendering violations never fails. -/
theorem violationLines_eq_ok (violations : List Violation) :
    violationLines violations = .ok (joinedLines violations) := by
  have written : List.Forall₂ (fun violation line => Violation.write violation = .ok line)
      violations (violations.map (·.document.text)) :=
    List.forall₂_map_right_iff.mpr (List.forall₂_same.mpr fun _ _ => rfl)
  rw [violationLines, linesFrom_eq_ok written, List.map_map]
  rfl

theorem toList_joinedLines (violations : List Violation) :
    (joinedLines violations).toList =
      ['\n'].intercalate (violations.map (·.document.text.toList) ++ [[]]) := by
  induction violations with
  | nil => rfl
  | cons violation violations ih =>
    have not_nil : violations.map (·.document.text.toList) ++ [[]] ≠ [] := by simp
    rw [joinedLines] at ih
    rw [joinedLines, List.map_cons, String.join_cons, String.toList_append, ih, List.map_cons,
      List.cons_append, List.intercalate_cons_of_ne_nil not_nil]
    simp

/-- Splitting the text at its line breaks gives the texts of the violations in order, and nothing
behind the last line break. -/
theorem splitOn_joinedLines (violations : List Violation) :
    (joinedLines violations).toList.splitOn '\n' =
      violations.map (·.document.text.toList) ++ [[]] := by
  rw [toList_joinedLines]
  apply List.splitOn_intercalate
  · intro line line_mem
    rcases List.mem_append.mp line_mem with line_mem | last
    · obtain ⟨violation, _, rfl⟩ := List.mem_map.mp line_mem
      exact violation.document.oneLine_text.newline_not_mem
    · rw [List.mem_singleton.mp last]
      exact List.not_mem_nil
  · simp

@[simp]
theorem linesOf_joinedLines (violations : List Violation) :
    linesOf (joinedLines violations) = violations.map (·.document.text) := by
  rw [linesOf, splitOn_joinedLines, List.dropLast_concat, List.map_map]
  simp

/-- The text is made of its lines, and nothing follows the last line break. -/
theorem splitOn_joinedLines_eq_linesOf (violations : List Violation) :
    (joinedLines violations).toList.splitOn '\n' =
      (linesOf (joinedLines violations)).map String.toList ++ [[]] := by
  rw [splitOn_joinedLines, linesOf_joinedLines, List.map_map]
  rfl

theorem count_newline_joinedLines (violations : List Violation) :
    (joinedLines violations).toList.count '\n' = violations.length := by
  induction violations with
  | nil => rfl
  | cons violation violations ih =>
    have none_inside : violation.document.text.toList.count '\n' = 0 :=
      List.count_eq_zero.mpr violation.document.oneLine_text.newline_not_mem
    rw [joinedLines] at ih
    rw [joinedLines, List.map_cons, String.join_cons, String.toList_append, List.count_append,
      ih, String.toList_append, List.count_append, none_inside]
    simp [Nat.add_comm]

/-- Line breaks are the only control characters of the text. -/
theorem newline_or_space_le_of_mem_joinedLines {c : Char}
    (c_mem : c ∈ (joinedLines violations).toList) : c = '\n' ∨ ' ' ≤ c := by
  induction violations with
  | nil => cases c_mem
  | cons violation violations ih =>
    rw [joinedLines, List.map_cons, String.join_cons, String.toList_append, List.mem_append,
      String.toList_append, List.mem_append] at c_mem
    rcases c_mem with (inside | newline) | later
    · exact .inr (violation.document.oneLine_text c inside)
    · exact .inl (List.mem_singleton.mp newline)
    · exact ih later

/-- What holds of every violation and its text holds line by line. -/
theorem forall₂_linesOf {p : String → Violation → Prop}
    (each : ∀ violation ∈ violations, p violation.document.text violation) :
    List.Forall₂ p (linesOf (joinedLines violations)) violations := by
  rw [linesOf_joinedLines, List.forall₂_map_left_iff]
  exact List.forall₂_same.mpr each

/-- A line is read back as a violation, or refused because the metadata is too deep. -/
def LineReads (line : String) (violation : Violation) : Prop :=
  (Violation.ofText line = .ok violation ↔ violation.metadata.depth ≤ 126) ∧
    (126 < violation.metadata.depth →
      ∃ remaining, Violation.ofText line = .error (.tooDeep remaining))

theorem forall₂_lineReads (ordered : ∀ violation ∈ violations, violation.metadata.Ordered) :
    List.Forall₂ LineReads (linesOf (joinedLines violations)) violations := by
  apply forall₂_linesOf
  intro violation violation_mem
  have metadata_ordered := ordered violation violation_mem
  exact ⟨Violation.ofText_text_eq_ok_iff metadata_ordered,
    Violation.ofText_text_tooDeep metadata_ordered⟩

/-- Metadata as deep as the nesting limit is encoded to a value whose violations are refused. -/
theorem exists_encoded_and_line_refused {metadata : DynamicMap}
    (ordered : (Dynamic.map metadata).Ordered) (finite : (Dynamic.map metadata).AllFinite)
    (depth_eq : (Dynamic.map metadata).depth = 127) :
    ∃ value, Structured.encodeMetadata metadata = .ok value ∧ ∀ constraint resource message,
      ∃ line remaining,
        violationLines [⟨constraint, resource, message, value⟩] = .ok (line ++ "\n") ∧
        Violation.ofText line = .error (.tooDeep remaining) := by
  obtain ⟨value, value_eq⟩ :=
    Structured.exists_encodeMetadata_eq_ok_iff.mpr ⟨finite, Nat.le_of_eq depth_eq⟩
  have image_eq := Structured.image?_of_encodeMetadata ordered value_eq
  refine ⟨value, value_eq, fun constraint resource message => ?_⟩
  let violation : Violation := ⟨constraint, resource, message, value⟩
  have deep : 126 < violation.metadata.depth := by
    rw [Structured.depth_eq_of_image? image_eq, depth_eq]
    decide
  obtain ⟨remaining, refused⟩ :=
    Violation.ofText_text_tooDeep (Structured.ordered_of_image? image_eq ordered) deep
  refine ⟨violation.document.text, remaining, ?_, refused⟩
  rw [violationLines_eq_ok]
  simp [joinedLines, violation]

/-- Every list of violations is rendered to safe lines, which are read back in order up to the limit
of the reader; that limit is one level below the limit of encoded metadata. -/
theorem violationLines_read_back (violations : List Violation)
    (ordered : ∀ violation ∈ violations, violation.metadata.Ordered) :
    (∃ text, violationLines violations = .ok text ∧
      text.toList.count '\n' = violations.length ∧
      (∀ c ∈ text.toList, c = '\n' ∨ ' ' ≤ c) ∧
      ∃ lines : List String, text.toList.splitOn '\n' = lines.map String.toList ++ [[]] ∧
        List.Forall₂ LineReads lines violations) ∧
    ∀ metadata : DynamicMap, (Dynamic.map metadata).Ordered → (Dynamic.map metadata).AllFinite →
      (Dynamic.map metadata).depth = 127 →
      ∃ value, Structured.encodeMetadata metadata = .ok value ∧ ∀ constraint resource message,
        ∃ line remaining,
          violationLines [⟨constraint, resource, message, value⟩] = .ok (line ++ "\n") ∧
          Violation.ofText line = .error (.tooDeep remaining) := by
  refine ⟨⟨joinedLines violations, violationLines_eq_ok violations,
    count_newline_joinedLines violations, fun c => newline_or_space_le_of_mem_joinedLines, ?_⟩,
    fun metadata metadata_ordered finite => exists_encoded_and_line_refused metadata_ordered finite⟩
  exact ⟨linesOf (joinedLines violations), splitOn_joinedLines_eq_linesOf violations,
    forall₂_lineReads ordered⟩

/-- Null inside so many lists. -/
def nestedLists : Nat → Structured
  | 0 => .null
  | count + 1 => .list [nestedLists count]

@[simp]
theorem depth_nestedLists (count : Nat) : (nestedLists count).depth = count := by
  induction count with
  | zero => rfl
  | succ count ih => simp [nestedLists, Structured.depth, Structured.itemsDepth, ih]

theorem ordered_nestedLists (count : Nat) : (nestedLists count).Ordered := by
  induction count with
  | zero => trivial
  | succ count ih => exact ⟨ih, trivial⟩

/-- The limit lies between 126 and 127 lists. -/
theorem violationLines_read_back_nestedLists :
    ∃ text first second remaining,
      violationLines [⟨"policy", "bucket", "two\nlines", nestedLists 126⟩,
        ⟨"policy", "bucket", "", nestedLists 127⟩] = .ok text ∧
      text.toList.splitOn '\n' = [first.toList, second.toList, []] ∧
      Violation.ofText first = .ok ⟨"policy", "bucket", "two\nlines", nestedLists 126⟩ ∧
      Violation.ofText second = .error (.tooDeep remaining) := by
  obtain ⟨⟨text, text_eq, _, _, lines, lines_eq, reads⟩, _⟩ := violationLines_read_back
    [⟨"policy", "bucket", "two\nlines", nestedLists 126⟩,
      ⟨"policy", "bucket", "", nestedLists 127⟩] (by simp [ordered_nestedLists])
  obtain ⟨first, _, first_reads, behind, rfl⟩ := List.forall₂_cons_right_iff.mp reads
  obtain ⟨second, _, second_reads, none_behind, rfl⟩ := List.forall₂_cons_right_iff.mp behind
  obtain rfl := List.forall₂_nil_right_iff.mp none_behind
  obtain ⟨remaining, refused⟩ := second_reads.2 (by simp [depth_nestedLists])
  exact ⟨text, first, second, remaining, text_eq, lines_eq,
    first_reads.1.mpr (by simp [depth_nestedLists]), refused⟩

end PolicyReview
