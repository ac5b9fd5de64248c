import PolicyReview.Proofs.Json.Slots
import PolicyReview.Schema.Records

/-!
# Validity against schemas

A schema is a document itself, and what it asks of a value is the meaning of its dialect, as far as
schemas of records are written in it.  A keyword speaks about the values of one type and asks
nothing of the others; a member that is no such keyword is an annotation and asks nothing at all.
From this meaning, which knows nothing of how schemas are generated, follows what a record asks of a
document.
-/

namespace PolicyReview
namespace Schema

open Json (valuesUnder)

/-- The number has no fraction. -/
def isIntegral : Json.Number → Bool
  | .float value _ => value.magnitude.den ∣ value.magnitude.num
  | _ => true

/-- The types of a value. -/
def typesOf : Json.Document → List String
  | .scalar .null => ["null"]
  | .scalar (.bool _) => ["boolean"]
  | .scalar (.number value) => "number" :: if isIntegral value then ["integer"] else []
  | .scalar (.string _) => ["string"]
  | .list _ => ["array"]
  | .object _ => ["object"]

/-- The value of `type` gives a type: alone, or among others. -/
def Gives (types : Json.Document) (name : String) : Prop :=
  types = .string name ∨ ∃ names, types = .list names ∧ .string name ∈ names

/-- A reference names a definition of the root.  Names that a pointer writes in another way are left
aside. -/
def Refers (root reference target : Json.Document) : Prop :=
  ∃ keywords definitions name, root = .object keywords ∧
    ("$defs", .object definitions) ∈ keywords ∧ (name, target) ∈ definitions ∧
    name.toList.all Char.isAlphanum ∧ reference = .string ("#/$defs/" ++ name)

/-- The keywords that ask something of a value. -/
def assertions : List String :=
  ["type", "$ref", "items", "properties", "required", "additionalProperties"]

/-- A value is valid against a schema.  The schema `true` asks nothing, no value is valid against
`false`, and an object asks what each of its keywords asks.  A reference leads to a definition of the
root, where the value is valid too; additional are the members that the schema has no property
for. -/
inductive Valid (root : Json.Document) : Json.Document → Json.Document → Prop where
  | always (value : Json.Document) : Valid root (.scalar (.bool true)) value
  | keywords {keywords : List (String × Json.Document)} {value : Json.Document}
    (type : ∀ types, ("type", types) ∈ keywords → ∃ name ∈ typesOf value, Gives types name)
    (resolves : ∀ reference, ("$ref", reference) ∈ keywords →
      ∃ target, Refers root reference target)
    (ref : ∀ reference target, ("$ref", reference) ∈ keywords → Refers root reference target →
      Valid root target value)
    (items : ∀ schema items, ("items", schema) ∈ keywords → value = .list items →
      ∀ item ∈ items, Valid root schema item)
    (properties : ∀ schemas members, ("properties", .object schemas) ∈ keywords →
      value = .object members → ∀ name schema part, (name, schema) ∈ schemas →
        (name, part) ∈ members → Valid root schema part)
    (required : ∀ names members, ("required", .list names) ∈ keywords → value = .object members →
      ∀ name, .string name ∈ names → ∃ part, (name, part) ∈ members)
    (additional : ∀ schema members, ("additionalProperties", schema) ∈ keywords →
      value = .object members → ∀ name part, (name, part) ∈ members →
        (∀ schemas known, ("properties", .object schemas) ∈ keywords → (name, known) ∉ schemas) →
          Valid root schema part) :
    Valid root (.object keywords) value

variable {root : Json.Document}

/-- Members that are no assertions can be left out, and put in. -/
theorem Valid.congr {keywords others : List (String × Json.Document)} {value : Json.Document}
    (valid : Valid root (.object keywords) value)
    (same : ∀ key ∈ assertions, ∀ asked, (key, asked) ∈ others ↔ (key, asked) ∈ keywords) :
    Valid root (.object others) value := by
  simp only [assertions, List.forall_mem_cons] at same
  obtain ⟨type_same, ref_same, items_same, properties_same, required_same, additional_same, -⟩ :=
    same
  cases valid with
  | keywords type resolves ref items properties required additional =>
    simp only [← type_same, ← ref_same, ← items_same, ← properties_same, ← required_same,
      ← additional_same] at type resolves ref items properties required additional
    exact .keywords type resolves ref items properties required additional

theorem valid_object_iff_of_same {keywords others : List (String × Json.Document)}
    {value : Json.Document}
    (same : ∀ key ∈ assertions, ∀ asked, (key, asked) ∈ others ↔ (key, asked) ∈ keywords) :
    Valid root (.object others) value ↔ Valid root (.object keywords) value :=
  ⟨fun valid => valid.congr fun key key_mem asked => (same key key_mem asked).symm,
    fun valid => valid.congr same⟩

theorem gives_string_iff {name other : String} : Gives (.string name) other ↔ other = name := by
  simp [Gives, Json.Document.string, eq_comm]

section Types

variable {value : Json.Document}

theorem string_mem_typesOf_iff : "string" ∈ typesOf value ↔ ∃ text, value = .string text := by
  cases value with
  | scalar value => cases value <;> simp [typesOf, Json.Document.string]
  | list items => simp [typesOf, Json.Document.string]
  | object members => simp [typesOf, Json.Document.string]

theorem array_mem_typesOf_iff : "array" ∈ typesOf value ↔ ∃ items, value = .list items := by
  cases value with
  | scalar value => cases value <;> simp [typesOf]
  | list items => simp [typesOf]
  | object members => simp [typesOf]

theorem object_mem_typesOf_iff :
    "object" ∈ typesOf value ↔ ∃ members, value = .object members := by
  cases value with
  | scalar value => cases value <;> simp [typesOf]
  | list items => simp [typesOf]
  | object members => simp [typesOf]

end Types

namespace Kind

variable {value : Json.Document}

theorem valid_anything (value : Json.Document) : Valid root anything.document value := by
  rw [document]
  exact .always value

/-- The members of a kind ask what its document asks. -/
theorem valid_members_iff {kind : Kind} :
    Valid root (.object kind.members) value ↔ Valid root kind.document value := by
  cases kind with
  | anything =>
    refine iff_of_true ?_ (valid_anything value)
    apply Valid.keywords <;> simp [members]
  | string => simp only [document]
  | list items => simp only [document]
  | table values => simp only [document]
  | record name => simp only [document]

theorem valid_string_iff :
    Valid root string.document value ↔ ∃ text, value = .string text := by
  rw [← valid_members_iff, members, ← string_mem_typesOf_iff]
  constructor
  · rintro (_ | ⟨type, _, _, _, _, _, _⟩)
    obtain ⟨name, name_mem, gives⟩ := type _ List.mem_cons_self
    exact gives_string_iff.mp gives ▸ name_mem
  · intro isString
    apply Valid.keywords <;> simp [textMember, gives_string_iff, isString]

theorem valid_list_iff {items : Kind} : Valid root (list items).document value ↔
    ∃ parts, value = .list parts ∧ ∀ part ∈ parts, Valid root items.document part := by
  rw [← valid_members_iff, members]
  constructor
  · rintro (_ | ⟨type, _, _, items_valid, _, _, _⟩)
    obtain ⟨name, name_mem, gives⟩ := type _ List.mem_cons_self
    obtain ⟨parts, rfl⟩ := array_mem_typesOf_iff.mp (gives_string_iff.mp gives ▸ name_mem)
    exact ⟨parts, rfl, items_valid _ parts (by simp) rfl⟩
  · rintro ⟨parts, rfl, parts_valid⟩
    apply Valid.keywords
    case items => simpa [textMember] using parts_valid
    all_goals simp [textMember, gives_string_iff, typesOf]

theorem valid_table_iff {values : Kind} : Valid root (table values).document value ↔
    ∃ members, value = .object members ∧
      ∀ member ∈ members, Valid root values.document member.2 := by
  rw [← valid_members_iff, members]
  constructor
  · rintro (_ | ⟨type, _, _, _, _, _, additional⟩)
    obtain ⟨name, name_mem, gives⟩ := type _ List.mem_cons_self
    obtain ⟨members, rfl⟩ := object_mem_typesOf_iff.mp (gives_string_iff.mp gives ▸ name_mem)
    refine ⟨members, rfl, fun member member_mem => ?_⟩
    exact additional _ members (by simp) rfl member.1 member.2 member_mem (by simp [textMember])
  · rintro ⟨members, rfl, members_valid⟩
    apply Valid.keywords
    case additional =>
      simpa [textMember] using fun name part part_mem => members_valid (name, part) part_mem
    all_goals simp [textMember, gives_string_iff, typesOf]

/-- A record is valid where it is defined. -/
theorem valid_record_iff {name : String} : Valid root (record name).document value ↔
    (∃ target, Refers root (.string ("#/$defs/" ++ name)) target) ∧
      ∀ target, Refers root (.string ("#/$defs/" ++ name)) target → Valid root target value := by
  rw [← valid_members_iff, members]
  constructor
  · rintro (_ | ⟨_, resolves, ref, _, _, _, _⟩)
    exact ⟨resolves _ List.mem_cons_self, fun target => ref _ target List.mem_cons_self⟩
  · rintro ⟨resolves, target_valid⟩
    apply Valid.keywords
    case resolves => simpa [textMember] using resolves
    case ref =>
      rintro reference target reference_mem refers
      obtain rfl : reference = .string ("#/$defs/" ++ name) := by
        simpa [textMember] using reference_mem
      exact target_valid target refers
    all_goals simp [textMember]

end Kind

namespace Property

/-- Notes are annotations. -/
theorem notMem_notes (property : Property) {key : String} (key_mem : key ∈ assertions)
    (noted : Json.Document) : (key, noted) ∉ property.notes := by
  have not_description : "description" ≠ key := by
    rintro rfl
    exact absurd key_mem (by decide)
  have not_default : "default" ≠ key := by
    rintro rfl
    exact absurd key_mem (by decide)
  simp [notes, descriptionMember, textMember, not_description, not_default]

/-- What is noted at a property asks nothing of its values. -/
theorem valid_member_iff (property : Property) {value : Json.Document} :
    Valid root property.member.2 value ↔ Valid root property.kind.document value := by
  unfold member
  split
  · rfl
  · rw [← Kind.valid_members_iff]
    refine valid_object_iff_of_same fun key key_mem noted => ?_
    simp [property.notMem_notes key_mem noted]

end Property

namespace Record

/-- A document describes a record: it is an object, whose members of the record are of their kinds,
and which has every member that is required. -/
def Describes (root : Json.Document) (record : Record) (value : Json.Document) : Prop :=
  ∃ members, value = .object members ∧ ∀ property ∈ record.properties,
    (∀ part ∈ valuesUnder property.name members, Valid root property.kind.document part) ∧
      (property.isRequired → valuesUnder property.name members ≠ [])

theorem Describes.exists_members {record : Record} {value : Json.Document}
    (describes : record.Describes root value) : ∃ members, value = .object members := by
  obtain ⟨members, value_eq, _⟩ := describes
  exact ⟨members, value_eq⟩

theorem describes_object_iff {record : Record} {members : List (String × Json.Document)} :
    record.Describes root (.object members) ↔ ∀ property ∈ record.properties,
      (∀ part ∈ valuesUnder property.name members, Valid root property.kind.document part) ∧
        (property.isRequired → valuesUnder property.name members ≠ []) := by
  simp [Describes]

/-- The assertions among the members of a record. -/
theorem mem_members_iff (record : Record) {key : String} (key_mem : key ∈ assertions)
    (asked : Json.Document) : (key, asked) ∈ record.members ↔
      key = "type" ∧ asked = .string "object" ∨
      key = "properties" ∧ asked = .object (record.properties.map Property.member) ∨
      record.required ≠ [] ∧ key = "required" ∧ asked = .list (record.required.map .string) := by
  have not_description : "description" ≠ key := by
    rintro rfl
    exact absurd key_mem (by decide)
  by_cases optional : record.required = [] <;>
    simp [members, descriptionMember, requiredMember, textMember, not_description, optional]

theorem mem_required_iff {record : Record} {name : String} :
    name ∈ record.required ↔
      ∃ property ∈ record.properties, property.isRequired ∧ property.name = name := by
  simp [required, and_assoc]

section Describes

variable {record : Record} {value : Json.Document}

theorem describes_of_valid_members (valid : Valid root (.object record.members) value) :
    record.Describes root value := by
  cases valid with
  | keywords type _ _ _ properties required _ =>
    obtain ⟨name, name_mem, gives⟩ :=
      type _ ((record.mem_members_iff (by decide) _).mpr (.inl ⟨rfl, rfl⟩))
    obtain ⟨members, rfl⟩ := object_mem_typesOf_iff.mp (gives_string_iff.mp gives ▸ name_mem)
    refine ⟨members, rfl, fun property property_mem => ⟨fun part part_mem => ?_, fun needed => ?_⟩⟩
    · have schemas_mem := (record.mem_members_iff (by decide) _).mpr (.inr (.inl ⟨rfl, rfl⟩))
      rw [Json.mem_valuesUnder_iff] at part_mem
      exact property.valid_member_iff.mp (properties _ members schemas_mem rfl property.name
        property.member.2 part (List.mem_map_of_mem property_mem) part_mem)
    · have name_mem : property.name ∈ record.required :=
        mem_required_iff.mpr ⟨property, property_mem, needed, rfl⟩
      have names_mem := (record.mem_members_iff (by decide) _).mpr
        (.inr (.inr ⟨List.ne_nil_of_mem name_mem, rfl, rfl⟩))
      obtain ⟨part, part_mem⟩ :=
        required _ members names_mem rfl property.name (List.mem_map_of_mem name_mem)
      exact List.ne_nil_of_mem (Json.mem_valuesUnder_iff.mpr part_mem)

theorem valid_members_of_describes (describes : record.Describes root value) :
    Valid root (.object record.members) value := by
  obtain ⟨members, rfl, each⟩ := describes
  have asked_iff (key : String) (isAssertion : assertions.contains key) :=
    record.mem_members_iff (List.contains_iff_mem.mp isAssertion)
  apply Valid.keywords
  case type =>
    intro types types_mem
    obtain rfl : types = .string "object" := by simpa [asked_iff "type" rfl] using types_mem
    exact ⟨"object", List.mem_singleton_self _, gives_string_iff.mpr rfl⟩
  case properties =>
    rintro schemas members schemas_mem ⟨⟩ name schema part schema_mem part_mem
    obtain rfl : schemas = record.properties.map Property.member := by
      simpa [asked_iff "properties" rfl] using schemas_mem
    obtain ⟨property, property_mem, member_eq⟩ := List.mem_map.mp schema_mem
    obtain ⟨rfl, rfl⟩ := Prod.ext_iff.mp member_eq
    exact property.valid_member_iff.mpr
      ((each property property_mem).1 part (Json.mem_valuesUnder_iff.mpr part_mem))
  case required =>
    rintro names members names_mem ⟨⟩ name name_mem
    obtain ⟨-, rfl⟩ : record.required ≠ [] ∧ names = record.required.map .string := by
      simpa [asked_iff "required" rfl] using names_mem
    obtain ⟨property, property_mem, needed, rfl⟩ : ∃ property ∈ record.properties,
        property.isRequired ∧ property.name = name :=
      mem_required_iff.mp (by simpa [Json.Document.string] using name_mem)
    obtain ⟨part, part_mem⟩ := List.exists_mem_of_ne_nil _ ((each property property_mem).2 needed)
    exact ⟨part, Json.mem_valuesUnder_iff.mp part_mem⟩
  -- A record asks nothing else.
  case resolves => simp [asked_iff "$ref" rfl]
  case ref => simp [asked_iff "$ref" rfl]
  case items => simp [asked_iff "items" rfl]
  case additional => simp [asked_iff "additionalProperties" rfl]

/-- The members of a record ask for what the record describes. -/
theorem valid_members_iff :
    Valid root (.object record.members) value ↔ record.Describes root value :=
  ⟨describes_of_valid_members, valid_members_of_describes⟩

end Describes

end Record

namespace Document

/-- A schema accepts the documents that are valid against it. -/
def Accepts (schema : Document) (value : Json.Document) : Prop :=
  Valid schema.document schema.document value

/-- A schema accepts what its root describes. -/
theorem accepts_iff {schema : Document} {value : Json.Document} :
    schema.Accepts value ↔ schema.root.Describes schema.document value := by
  rw [Accepts, ← Record.valid_members_iff]
  conv_lhs => rw [document]
  refine valid_object_iff_of_same fun key key_mem asked => ?_
  have differs {other : String} (notAssertion : ¬ assertions.contains other) : other ≠ key := by
    rintro rfl
    exact notAssertion (List.contains_iff_mem.mpr key_mem)
  by_cases alone : schema.definitions = [] <;>
    simp [textMember, definitionsMember, alone, (differs (by decide) : "$schema" ≠ key).symm,
      (differs (by decide) : "title" ≠ key).symm, (differs (by decide) : "$defs" ≠ key).symm]

/-- A schema defines a record, under a name of its own that is plain. -/
structure Defines (schema : Document) (record : Record) : Prop where
  mem : record ∈ schema.definitions
  unique : ∀ other ∈ schema.definitions, other.name = record.name → other = record
  plain : record.name.toList.all Char.isAlphanum

theorem defines_of_mem {schema : Document} {record : Record} (mem : record ∈ schema.definitions)
    (names_nodup : (schema.definitions.map (·.name)).Nodup)
    (plain : record.name.toList.all Char.isAlphanum) : schema.Defines record where
  mem := mem
  unique _ other_mem name_eq := List.inj_on_of_nodup_map names_nodup other_mem mem name_eq
  plain := plain

theorem Defines.refers_iff {schema : Document} {record : Record} (defines : schema.Defines record)
    {target : Json.Document} :
    Refers schema.document (.string ("#/$defs/" ++ record.name)) target ↔
      target = .object record.members := by
  have definitions_iff {definitions : Json.Document} :
      ("$defs", definitions) ∈
        [textMember "$schema" dialect, textMember "title" schema.root.name] ++
          schema.root.members ++ schema.definitionsMember ↔
      definitions = .object (schema.definitions.map Record.definition) := by
    have some_defined := List.ne_nil_of_mem defines.mem
    have root_members : ("$defs", definitions) ∉ schema.root.members := by
      by_cases optional : schema.root.required = [] <;>
        simp [Record.members, descriptionMember, Record.requiredMember, textMember, optional]
    simp [textMember, root_members, definitionsMember, some_defined]
  constructor
  · rintro ⟨keywords, definitions, name, keywords_eq, definitions_mem, target_mem, -, reference_eq⟩
    cases keywords_eq
    cases definitions_iff.mp definitions_mem
    obtain ⟨other, other_mem, ⟨rfl, rfl⟩⟩ := List.mem_map.mp target_mem
    have name_eq : record.name = other.name :=
      (String.append_right_inj "#/$defs/").mp (by simpa [Json.Document.string] using reference_eq)
    rw [defines.unique other other_mem name_eq.symm]
  · rintro rfl
    exact ⟨_, _, record.name, rfl, definitions_iff.mpr rfl, List.mem_map_of_mem defines.mem,
      defines.plain, rfl⟩

/-- The kind of a record that a schema defines asks for what the record describes. -/
theorem Defines.valid_record_iff {schema : Document} {record : Record}
    (defines : schema.Defines record) {value : Json.Document} :
    Valid schema.document (Kind.record record.name).document value ↔
      record.Describes schema.document value := by
  rw [Kind.valid_record_iff]
  simp only [defines.refers_iff, exists_eq, forall_eq, true_and, Record.valid_members_iff]

end Document

theorem evalResult_defines_constraint : evalResult.Defines constraintRecord :=
  Document.defines_of_mem (by simp [evalResult]) (by decide) (by decide)

theorem response_defines_constraint : response.Defines constraintRecord :=
  Document.defines_of_mem (by simp [response]) (by decide) (by decide)

theorem response_defines_evalResult : response.Defines evalResultRecord :=
  Document.defines_of_mem (by simp [response]) (by decide) (by decide)

theorem responses_defines_constraint : responses.Defines constraintRecord :=
  Document.defines_of_mem (by simp [responses]) (by decide) (by decide)

theorem responses_defines_evalResult : responses.Defines evalResultRecord :=
  Document.defines_of_mem (by simp [responses]) (by decide) (by decide)

theorem responses_defines_response : responses.Defines responseRecord :=
  Document.defines_of_mem (by simp [responses]) (by decide) (by decide)

end Schema
end PolicyReview
