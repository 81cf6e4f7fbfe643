import BlobStorage.Configuration.Document
import BlobStorage.Proofs.Json.Spelling

-- Objects that write a configuration, with their members in any order and spelling and with others
-- between them, are read as what they write, and then it is validated. Where a member is missing or is
-- written twice, they are refused.
namespace BlobStorage.Configuration

open Json

namespace Field

-- What a field holds.
abbrev Value : Field → Type
  | .accountName | .accountKey | .containerName => String
  | .environment => Environment
  | .getTimeout | .putTimeout => Nat

-- What a field is that is left out, if it can be.
def standard? : (field : Field) → Option field.Value
  | .accountName | .accountKey | .containerName => none
  | .environment => some .worldwide
  | .getTimeout => some standardGetTimeout
  | .putTimeout => some standardPutTimeout

-- An environment is its name, or an object with the name as its only key and no value to it.
inductive Names (e : Environment) : Bytes → Prop
  | text {bytes : Bytes} (h : Quoted e.name bytes) : Names e bytes
  | key {gap key before after last : Bytes} (hgap : Blank gap) (hkey : Quoted e.name key)
      (hbefore : Blank before) (hafter : Blank after) (hlast : Blank last) :
      Names e (123 :: (gap ++ (key ++ (before ++ 58 ::
        (after ++ 110 :: (nullRest ++ (last ++ [125])))))))

-- Texts are written in quotation marks, and numbers of 64 bits as their digits.
def Writes : (field : Field) → field.Value → Bytes → Prop
  | .accountName, s, bytes => Quoted s bytes
  | .accountKey, s, bytes => Quoted s bytes
  | .containerName, s, bytes => Quoted s bytes
  | .environment, e, bytes => Names e bytes
  | .getTimeout, n, bytes => n < Text.word64 ∧ bytes = numeral n
  | .putTimeout, n, bytes => n < Text.word64 ∧ bytes = numeral n

theorem ofName?_name (field : Field) : ofName? field.name = some field := by
  cases field <;> decide

theorem ofName?_eq_none {name : String} (h : ∀ field : Field, field.name ≠ name) :
    ofName? name = none :=
  List.find?_eq_none.mpr fun field _ hname => h field (eq_of_beq hname)

end Field

def value (c : Configuration) : (field : Field) → field.Value
  | .accountName => c.accountName
  | .accountKey => c.accountKey
  | .containerName => c.containerName
  | .environment => c.environment
  | .getTimeout => c.getTimeout
  | .putTimeout => c.putTimeout

-- The first condition that is violated, by the failure that says so.
def violation? (c : Configuration) : Option Failure :=
  if c.accountName = "" then some (.invalidInput "account_name is required")
  else if c.accountKey = "" then some (.invalidInput "account_key is required")
  else if c.containerName = "" then some (.invalidInput "container_name is required")
  else if c.getTimeout = 0 then
    some (.invalidConfig "signed_url_get_timeout must be greater than zero")
  else if c.putTimeout ≤ c.getTimeout then
    some (.invalidConfig ("signed_url_put_timeout (" ++ Nat.repr c.putTimeout
      ++ "s) must be longer than signed_url_get_timeout (" ++ Nat.repr c.getTimeout ++ "s)"))
  else none

namespace Document

-- A member of an object: a field with its value, or one that does not count, which holds a string.
inductive Member where
  | given (field : Field) (value : field.Value)
  | other (key value : String)

namespace Member

def field? : Member → Option Field
  | given field _ => some field
  | other _ _ => none

-- A key, a colon and a value, with blanks between them.
inductive Writes : Member → Bytes → Prop
  | given {field : Field} {value : field.Value} {key gap after bytes : Bytes}
      (hkey : Quoted field.name key) (hgap : Blank gap) (hafter : Blank after)
      (h : field.Writes value bytes) :
      Writes (.given field value) (key ++ (gap ++ 58 :: (after ++ bytes)))
  | other {name value : String} {key gap after bytes : Bytes}
      (hname : ∀ field : Field, field.name ≠ name) (hkey : Quoted name key) (hgap : Blank gap)
      (hafter : Blank after) (h : Quoted value bytes) :
      Writes (.other name value) (key ++ (gap ++ 58 :: (after ++ bytes)))

end Member

-- What stands in front of a member: a comma, unless it is the first.
inductive Lead : Bool → Bytes → Prop
  | first {gap : Bytes} (hgap : Blank gap) : Lead true gap
  | next {gap after : Bytes} (hgap : Blank gap) (hafter : Blank after) : Lead false (gap ++ 44 :: after)

inductive Listed : Bool → List Member → Bytes → Prop
  | nil (first : Bool) : Listed first [] []
  | cons {first : Bool} {m : Member} {ms : List Member} {lead bytes rest : Bytes}
      (hlead : Lead first lead) (h : m.Writes bytes) (hmore : Listed false ms rest) :
      Listed first (m :: ms) (lead ++ (bytes ++ rest))

-- A document that is an object with these members.
inductive Object (ms : List Member) : Bytes → Prop
  | mk {front body gap behind : Bytes} (hfront : Blank front) (h : Listed true ms body)
      (hgap : Blank gap) (hbehind : Blank behind) :
      Object ms (front ++ 123 :: (body ++ (gap ++ 125 :: behind)))

def fields (ms : List Member) : List Field := ms.filterMap Member.field?

theorem fields_given (field : Field) (value : field.Value) (ms : List Member) :
    fields (.given field value :: ms) = field :: fields ms := rfl

theorem fields_other (key value : String) (ms : List Member) :
    fields (.other key value :: ms) = fields ms := rfl

theorem mem_fields {field : Field} {ms : List Member} :
    field ∈ fields ms ↔ ∃ value, .given field value ∈ ms := by
  constructor
  · intro h
    obtain ⟨m, hm, hfield⟩ := List.mem_filterMap.mp h
    cases m with
    | other => exact nomatch hfield
    | given given value =>
      obtain rfl : given = field := Option.some.inj hfield
      exact ⟨value, hm⟩
  · rintro ⟨value, h⟩
    exact List.mem_filterMap.mpr ⟨_, h, rfl⟩

-- An object up to the key of a field that one of its members has given. Anything may follow.
inductive Repeats : Bytes → Prop
  | mk {ms : List Member} {field : Field} {front body lead key : Bytes} (hfront : Blank front)
      (h : Listed true ms body) (hfield : field ∈ fields ms) (hlead : Lead false lead)
      (hkey : Quoted field.name key) (rest : Bytes) :
      Repeats (front ++ 123 :: (body ++ (lead ++ (key ++ rest))))

-- The members write a configuration: each of its fields once, but for those that are standard.
structure Describes (ms : List Member) (c : Configuration) : Prop where
  once : (fields ms).Nodup
  values : ∀ field value, .given field value ∈ ms → value = c.value field
  omitted : ∀ field, field ∉ fields ms → field.standard? = some (c.value field)

end Document

namespace Draft

open Document (Member fields fields_given fields_other)

variable {draft : Draft} {field other : Field} {m : Member} {ms : List Member}

def value? (draft : Draft) : (field : Field) → Option field.Value
  | .accountName => draft.accountName
  | .accountKey => draft.accountKey
  | .containerName => draft.containerName
  | .environment => draft.environment
  | .getTimeout => draft.getTimeout
  | .putTimeout => draft.putTimeout

def put (draft : Draft) : (field : Field) → field.Value → Draft
  | .accountName, s => { draft with accountName := some s }
  | .accountKey, s => { draft with accountKey := some s }
  | .containerName, s => { draft with containerName := some s }
  | .environment, e => { draft with environment := some e }
  | .getTimeout, n => { draft with getTimeout := some n }
  | .putTimeout, n => { draft with putTimeout := some n }

theorem has_eq (draft : Draft) (field : Field) : draft.has field = (draft.value? field).isSome := by
  cases field <;> rfl

theorem value?_put (draft : Draft) (field : Field) (value : field.Value) :
    (draft.put field value).value? field = some value := by
  cases field <;> rfl

theorem value?_put_ne (draft : Draft) (value : field.Value) (h : other ≠ field) :
    (draft.put field value).value? other = draft.value? other := by
  cases field <;> cases other <;> first | rfl | exact absurd rfl h

-- A draft with the values of a configuration, but for those that are standard, is finished as it.
theorem finish_eq {c : Configuration}
    (h : ∀ field, (draft.value? field).or field.standard? = some (c.value field)) :
    draft.finish = c := by
  have hname : draft.accountName = some c.accountName := Option.or_none.symm.trans (h .accountName)
  have hkey : draft.accountKey = some c.accountKey := Option.or_none.symm.trans (h .accountKey)
  have hcontainer : draft.containerName = some c.containerName :=
    Option.or_none.symm.trans (h .containerName)
  have henvironment : draft.environment.getD .worldwide = c.environment :=
    Option.some.inj (Option.or_some.symm.trans (h .environment))
  have hget : draft.getTimeout.getD standardGetTimeout = c.getTimeout :=
    Option.some.inj (Option.or_some.symm.trans (h .getTimeout))
  have hput : draft.putTimeout.getD standardPutTimeout = c.putTimeout :=
    Option.some.inj (Option.or_some.symm.trans (h .putTimeout))
  rw [finish, hname, hkey, hcontainer, henvironment, hget, hput]
  rfl

theorem missing?_eq_none (h : ∀ field : Field, field.standard? = none → draft.has field = true) :
    draft.missing? = none := by
  refine List.find?_eq_none.mpr fun field hfield => ?_
  have hstandard : field.standard? = none := by
    simp only [List.mem_cons, List.not_mem_nil, or_false] at hfield
    rcases hfield with rfl | rfl | rfl <;> rfl
  simp only [h field hstandard, Bool.not_true, Bool.false_eq_true, not_false_eq_true]

theorem missing?_eq_some (hstandard : field.standard? = none) (h : draft.has field = false) :
    ∃ lacking, draft.missing? = some lacking := by
  have hfield : field ∈ [Field.accountName, .accountKey, .containerName] := by
    cases field <;> first | decide | exact nomatch hstandard
  refine Option.isSome_iff_exists.mp (List.find?_isSome.mpr ⟨field, hfield, ?_⟩)
  rw [h, Bool.not_false]

def add (draft : Draft) : Member → Draft
  | .given field value => draft.put field value
  | .other _ _ => draft

-- None of the members gives a field that is there already, be it in the draft or by one of them.
def Fresh (draft : Draft) (ms : List Member) : Prop :=
  (fields ms).Nodup ∧ ∀ field ∈ fields ms, draft.has field = false

theorem has_put_eq_false_iff (value : field.Value) :
    (draft.put field value).has other = false ↔ draft.has other = false ∧ other ≠ field := by
  by_cases h : other = field
  · subst h
    rw [has_eq, value?_put]
    exact iff_of_false Bool.noConfusion fun h => h.2 rfl
  · rw [has_eq, value?_put_ne draft value h, ← has_eq]
    exact (and_iff_left h).symm

theorem fresh_cons :
    Fresh draft (m :: ms) ↔
      (∀ field ∈ m.field?, draft.has field = false) ∧ Fresh (draft.add m) ms := by
  cases m with
  | other key value =>
    rw [Fresh, fields_other]
    exact ⟨fun h => ⟨fun _ hnone => (nomatch hnone), h⟩, And.right⟩
  | given field value =>
    rw [Fresh, fields_given, List.nodup_cons, List.forall_mem_cons]
    constructor
    · rintro ⟨⟨hfield, hnodup⟩, hhas, hmore⟩
      refine ⟨fun _ hsome => Option.some.inj hsome ▸ hhas, hnodup, fun other hother => ?_⟩
      have hne : other ≠ field := fun heq => hfield (heq ▸ hother)
      exact (has_put_eq_false_iff value).mpr ⟨hmore other hother, hne⟩
    · rintro ⟨hhas, hnodup, hmore⟩
      have hput := fun other hother => (has_put_eq_false_iff value).mp (hmore other hother)
      have hfield : field ∉ fields ms := fun hmem => (hput field hmem).2 rfl
      exact ⟨⟨hfield, hnodup⟩, hhas field rfl, fun other hother => (hput other hother).1⟩

-- What is not given stays as it is.
theorem value?_foldl_of_not_mem (h : field ∉ fields ms) :
    (ms.foldl add draft).value? field = draft.value? field := by
  induction ms generalizing draft with
  | nil => rfl
  | cons m ms ih =>
    rw [List.foldl_cons]
    cases m with
    | other key value => exact ih h
    | given given value =>
      rw [fields_given, List.mem_cons, not_or] at h
      obtain ⟨hne, hmore⟩ := h
      rw [ih hmore]
      exact value?_put_ne draft value hne

theorem value?_foldl_of_mem {value : field.Value} (hnodup : (fields ms).Nodup)
    (h : .given field value ∈ ms) : (ms.foldl add draft).value? field = some value := by
  induction ms generalizing draft with
  | nil => exact nomatch h
  | cons m ms ih =>
    rw [List.foldl_cons]
    rcases List.mem_cons.mp h with rfl | hmore
    · rw [value?_foldl_of_not_mem (List.nodup_cons.mp hnodup).1]
      exact value?_put draft field value
    · cases m with
      | other key value => exact ih hnodup hmore
      | given given value => exact ih (List.nodup_cons.mp hnodup).2 hmore

end Draft

namespace Document

open Draft (Fresh)

variable {draft : Draft} {field : Field} {m : Member} {ms : List Member} {first : Bool}
  {fuel : Nat} {gap bytes rest tail lead body key : Bytes}

section Members

theorem wantEnvironment_names {e : Environment} (hgap : Blank gap) (h : Field.Names e bytes)
    (rest : Bytes) : wantEnvironment (gap ++ (bytes ++ rest)) = .ok (e, rest) := by
  have hnamed : ∀ rest, environmentNamed e.name rest = .ok (e, rest) := by
    intro rest
    rw [environmentNamed, Environment.ofName?_name]
  cases h with
  | text h =>
    obtain ⟨more, hmore, hstring, -⟩ := h.append rest
    rw [wantEnvironment, hmore, skipBlank_gap hgap (by decide)]
    change (string more >>= _) = .ok (e, rest)
    rw [hstring]
    exact hnamed rest
  | @key gap key before after last hgap' hkey hbefore hafter hlast =>
    have hsplit : 123 :: (gap ++ (key ++ (before ++ 58 ::
        (after ++ 110 :: (nullRest ++ (last ++ [125])))))) ++ rest =
        123 :: (gap ++ (key ++ (before ++ 58 ::
          (after ++ 110 :: (nullRest ++ (last ++ 125 :: rest)))))) := by
      simp only [List.cons_append, List.append_assoc, List.nil_append]
    have hend : environmentEnd e (last ++ 125 :: rest) = .ok (e, rest) := by
      rw [environmentEnd, skipBlank_gap hlast (by decide)]
      rfl
    rw [hsplit, wantEnvironment, skipBlank_gap hgap (by decide)]
    change (wantString "variant identifier" _ >>= _) = .ok (e, rest)
    simp only [wantString_quoted hgap' hkey, hnamed, colon_gap hbefore, wantNull_null hafter, hend,
      bind, Except.bind]

theorem readField_writes {value : field.Value} (h : field.Writes value bytes) (hgap : Blank gap)
    (hrest : EndsNumber rest) :
    readField field draft (gap ++ (bytes ++ rest)) = .ok (draft.put field value, rest) := by
  cases field with
  | accountName => rw [readField, wantString_quoted hgap h]; rfl
  | accountKey => rw [readField, wantString_quoted hgap h]; rfl
  | containerName => rw [readField, wantString_quoted hgap h]; rfl
  | environment => rw [readField, wantEnvironment_names hgap h]; rfl
  | getTimeout =>
    obtain ⟨hword, rfl⟩ := h
    rw [readField, wantNatural_numeral hgap hword hrest]
    rfl
  | putTimeout =>
    obtain ⟨hword, rfl⟩ := h
    rw [readField, wantNatural_numeral hgap hword hrest]
    rfl

theorem nextKey_lead (hlead : Lead first lead) (more : Bytes) :
    nextKey first (lead ++ 34 :: more) = .ok (some more) := by
  cases hlead with
  | first hgap =>
    rw [nextKey, skipBlank_gap hgap (by decide)]
    rfl
  | @next gap after hgap hafter =>
    rw [List.append_assoc, List.cons_append, nextKey, skipBlank_gap hgap (by decide)]
    change (if false = true then _ else if (44 : UInt8) = 44 then _ else _) =
      Except.ok (some more)
    rw [if_neg Bool.false_ne_true, if_pos rfl, skipBlank_gap hafter (by decide)]
    rfl

theorem nextKey_brace (hgap : Blank gap) (first : Bool) (rest : Bytes) :
    nextKey first (gap ++ 125 :: rest) = .ok none := by
  rw [nextKey, skipBlank_gap hgap (by decide)]
  rfl

theorem members_key {name : String} (hlead : Lead first lead) (hkey : Quoted name key) (rest : Bytes) :
    members (fuel + 1) first draft (lead ++ (key ++ rest)) =
      member name draft rest >>= fun step => members fuel false step.1 step.2 := by
  obtain ⟨more, hmore, hstring, -⟩ := hkey.append rest
  rw [members, hmore, nextKey_lead hlead]
  simp only [bind, Except.bind, hstring]

-- One member is taken up, and those behind it come next.
theorem members_step (hlead : Lead first lead) (h : m.Writes bytes)
    (hfresh : ∀ field ∈ m.field?, draft.has field = false) (hrest : EndsNumber rest) :
    members (fuel + 1) first draft (lead ++ (bytes ++ rest)) =
      members fuel false (draft.add m) rest := by
  cases h with
  | @given field value key gap after bytes hkey hgap hafter h =>
    simp only [List.append_assoc, List.cons_append, members_key hlead hkey]
    simp only [member, Field.ofName?_name, hfresh field rfl, Bool.false_eq_true, if_false,
      colon_gap hgap, readField_writes h hafter hrest, bind, Except.bind]
    rfl
  | @other name value key gap after bytes hname hkey hgap hafter h =>
    simp only [List.append_assoc, List.cons_append, members_key hlead hkey]
    simp only [member, Field.ofName?_eq_none hname, colon_gap hgap, skipValue_quoted hafter h, bind,
      Except.bind]
    rfl

-- A key that is there already is refused, whatever follows.
theorem members_repeated (hlead : Lead first lead) (hkey : Quoted field.name key)
    (hfield : draft.has field = true) (rest : Bytes) :
    ∃ problem, members (fuel + 1) first draft (lead ++ (key ++ rest)) = .error problem := by
  refine ⟨⟨.duplicateField field.name, rest.length⟩, ?_⟩
  rw [members_key hlead hkey, member, Field.ofName?_name]
  simp only [hfield, if_true]
  rfl

theorem Lead.endsNumber (h : Lead false lead) (rest : Bytes) : EndsNumber (lead ++ rest) := by
  cases h with
  | next hgap hafter =>
    rw [List.append_assoc]
    refine endsNumber_gap hgap ?_
    rintro _ ⟨⟩
    decide

theorem Listed.endsNumber (h : Listed false ms body) (htail : EndsNumber tail) :
    EndsNumber (body ++ tail) := by
  cases h with
  | nil => exact htail
  | cons hlead h hmore =>
    rw [List.append_assoc]
    exact hlead.endsNumber _

-- A number of steps that is enough for the members.
theorem Listed.length_le (h : Listed first ms body) : ms.length ≤ body.length := by
  induction h with
  | nil => exact Nat.le_refl 0
  | @cons _ m _ _ bytes _ _ h _ ih =>
    have hbytes : 0 < bytes.length := by
      cases h <;> simp only [List.length_append, List.length_cons] <;> omega
    simp only [List.length_append, List.length_cons]
    omega

theorem members_listed (h : Listed first ms body) (htail : EndsNumber tail) (hfresh : Fresh draft ms) :
    members (ms.length + fuel) first draft (body ++ tail) =
      members fuel (first && ms.isEmpty) (ms.foldl Draft.add draft) tail := by
  induction h generalizing draft with
  | nil first => rw [List.length_nil, Nat.zero_add, List.isEmpty_nil, Bool.and_true]; rfl
  | @cons first m ms lead bytes body hlead h hmore ih =>
    obtain ⟨hhead, hfresh⟩ := Draft.fresh_cons.mp hfresh
    rw [List.length_cons, Nat.add_right_comm, List.append_assoc, List.append_assoc,
      members_step hlead h hhead (hmore.endsNumber htail), ih hfresh, List.isEmpty_cons,
      Bool.and_false, Bool.false_and, List.foldl_cons]

-- The first member that is not fresh stops the reading.
theorem members_stopped (h : Listed first ms body) (htail : EndsNumber tail)
    (hstale : ¬ Fresh draft ms) :
    ∃ problem, members (ms.length + fuel) first draft (body ++ tail) = .error problem := by
  induction h generalizing draft with
  | nil => exact absurd ⟨List.nodup_nil, fun _ hfield => nomatch hfield⟩ hstale
  | @cons first m ms lead bytes body hlead h hmore ih =>
    rw [List.length_cons, Nat.add_right_comm, List.append_assoc, List.append_assoc]
    by_cases hhead : ∀ field ∈ m.field?, draft.has field = false
    · rw [members_step hlead h hhead (hmore.endsNumber htail)]
      exact ih fun hfresh => hstale (Draft.fresh_cons.mpr ⟨hhead, hfresh⟩)
    · cases h with
      | other => exact absurd (fun _ hnone => nomatch hnone) hhead
      | given hkey hgap hafter h =>
        rw [List.append_assoc]
        refine members_repeated hlead hkey (Bool.not_eq_false _ ▸ fun hfalse => ?_) _
        exact hhead fun _ hsome => Option.some.inj hsome ▸ hfalse

end Members

section Objects

variable {front behind document : Bytes}

-- Nothing is there before the first member.
theorem fresh_empty : Fresh {} ms ↔ (fields ms).Nodup :=
  ⟨And.left, fun h => ⟨h, fun field _ => by cases field <;> rfl⟩⟩

theorem endsNumber_brace (hgap : Blank gap) (behind : Bytes) : EndsNumber (gap ++ 125 :: behind) := by
  refine endsNumber_gap hgap ?_
  rintro _ ⟨⟩
  decide

theorem Listed.enough (h : Listed first ms body) (tail : Bytes) :
    ∃ fuel, (body ++ tail).length + 1 = ms.length + (fuel + 1) := by
  have hle := h.length_le
  refine ⟨(body ++ tail).length - ms.length, ?_⟩
  rw [List.length_append]
  omega

theorem members_object (h : Listed true ms body) (hgap : Blank gap) (behind : Bytes)
    (hnodup : (fields ms).Nodup) :
    members ((body ++ (gap ++ 125 :: behind)).length + 1) true {} (body ++ (gap ++ 125 :: behind)) =
      .ok (ms.foldl Draft.add {}, 125 :: behind) := by
  obtain ⟨fuel, hfuel⟩ := h.enough (gap ++ 125 :: behind)
  have hbrace : skipBlank (gap ++ 125 :: behind) = 125 :: behind := skipBlank_gap hgap (by decide) _
  rw [hfuel, members_listed h (endsNumber_brace hgap behind) (fresh_empty.mpr hnodup), members,
    nextKey_brace hgap]
  simp only [bind, Except.bind, hbrace]

theorem ofDocument_error (problem : Problem) (h : read document = .error problem) :
    ∃ text, ofDocument document = .error (.invalidConfig text) :=
  ⟨problem.message document, by rw [ofDocument, h]⟩

theorem read_brace (hfront : Blank front) (rest : Bytes) :
    read (front ++ 123 :: rest) = (do
      let (configuration, rest) ← object rest
      match skipBlank rest with
      | [] => .ok configuration
      | other => fail .trailingCharacters other) := by
  rw [read, skipBlank_gap hfront (by decide)]
  rfl

theorem ofDocument_stopped (hfront : Blank front)
    (h : ∃ problem, members (bytes.length + 1) true {} bytes = .error problem) :
    ∃ text, ofDocument (front ++ 123 :: bytes) = .error (.invalidConfig text) := by
  obtain ⟨problem, h⟩ := h
  refine ofDocument_error problem ?_
  rw [read_brace hfront, object, h]
  rfl

theorem value?_described {c : Configuration} (h : Describes ms c) (field : Field) :
    ((ms.foldl Draft.add {}).value? field).or field.standard? = some (c.value field) := by
  by_cases hfield : field ∈ fields ms
  · obtain ⟨value, hvalue⟩ := mem_fields.mp hfield
    rw [Draft.value?_foldl_of_mem h.once hvalue, Option.some_or, h.values field value hvalue]
  · have hempty : ({} : Draft).value? field = none := by cases field <;> rfl
    rw [Draft.value?_foldl_of_not_mem hfield, hempty, Option.none_or, h.omitted field hfield]

theorem read_described {c : Configuration} (h : Object ms document) (hc : Describes ms c) :
    read document = .ok c := by
  have hvalue := value?_described hc
  have hmissing : (ms.foldl Draft.add {}).missing? = none := by
    refine Draft.missing?_eq_none fun field hstandard => ?_
    have := hvalue field
    rw [hstandard, Option.or_none] at this
    rw [Draft.has_eq, this, Option.isSome_some]
  cases h with
  | mk hfront h hgap hbehind =>
    rw [read_brace hfront, object, members_object h hgap _ hc.once]
    simp only [bind, Except.bind, hmissing, Draft.finish_eq hvalue, List.drop_one, List.tail_cons,
      skipBlank_all hbehind]

theorem ofDocument_twice (h : Object ms document) (hnodup : ¬ (fields ms).Nodup) :
    ∃ text, ofDocument document = .error (.invalidConfig text) := by
  cases h with
  | @mk front body gap behind hfront h hgap hbehind =>
    refine ofDocument_stopped hfront ?_
    obtain ⟨fuel, hfuel⟩ := h.enough (gap ++ 125 :: behind)
    rw [hfuel]
    exact members_stopped h (endsNumber_brace hgap behind) fun hfresh =>
      hnodup (fresh_empty.mp hfresh)

theorem ofDocument_lacking (h : Object ms document) (hstandard : field.standard? = none)
    (hfield : field ∉ fields ms) : ∃ text, ofDocument document = .error (.invalidConfig text) := by
  by_cases hnodup : (fields ms).Nodup
  · have hhas : (ms.foldl Draft.add {}).has field = false := by
      rw [Draft.has_eq, Draft.value?_foldl_of_not_mem hfield]
      cases field <;> rfl
    obtain ⟨lacking, hlacking⟩ := Draft.missing?_eq_some hstandard hhas
    cases h with
    | @mk front body gap behind hfront h hgap hbehind =>
      refine ofDocument_error ⟨.missingField lacking.name, (125 :: behind).length⟩ ?_
      rw [read_brace hfront, object, members_object h hgap _ hnodup]
      simp only [bind, Except.bind, hlacking]
      rfl
  · exact ofDocument_twice h hnodup

theorem ofDocument_repeats (h : Repeats document) :
    ∃ text, ofDocument document = .error (.invalidConfig text) := by
  cases h with
  | @mk ms field front body lead key hfront h hfield hlead hkey rest =>
    refine ofDocument_stopped hfront ?_
    obtain ⟨fuel, hfuel⟩ := h.enough (lead ++ (key ++ rest))
    rw [hfuel]
    by_cases hfresh : Fresh {} ms
    · have hempty : ms.isEmpty = false := by
        cases ms with
        | nil => exact nomatch hfield
        | cons => rfl
      have hhas : (ms.foldl Draft.add {}).has field = true := by
        obtain ⟨value, hvalue⟩ := mem_fields.mp hfield
        rw [Draft.has_eq, Draft.value?_foldl_of_mem (fresh_empty.mp hfresh) hvalue,
          Option.isSome_some]
      rw [members_listed h (hlead.endsNumber _) hfresh, hempty, Bool.and_false]
      exact members_repeated hlead hkey hhas rest
    · exact members_stopped h (hlead.endsNumber _) hfresh

end Objects

end Document

-- Whole seconds compare as their nanoseconds do, and are read back from them.
theorem signPolicy_eq (c : Configuration) :
    c.signPolicy.map (fun _ => ()) =
      if c.getTimeout = 0 then
        .error (.invalidConfig "signed_url_get_timeout must be greater than zero")
      else if c.putTimeout ≤ c.getTimeout then
        .error (.invalidConfig ("signed_url_put_timeout (" ++ Nat.repr c.putTimeout
          ++ "s) must be longer than signed_url_get_timeout (" ++ Nat.repr c.getTimeout ++ "s)"))
      else .ok () := by
  have hseconds : ∀ n, (Span.ofSeconds n).seconds = n := fun n => Nat.mul_div_cancel n (by decide)
  have hlt : ∀ m n, (Span.ofSeconds m).nanos < (Span.ofSeconds n).nanos ↔ m < n := fun m n =>
    Nat.mul_lt_mul_right (by decide)
  have hpos : 0 < (Span.ofSeconds c.getTimeout).nanos ↔ 0 < c.getTimeout :=
    Nat.mul_pos_iff_of_pos_right (by decide)
  by_cases hget : c.getTimeout = 0
  · rw [signPolicy, SignPolicy.new, dif_neg (by omega), if_pos hget]
    rfl
  rw [signPolicy, SignPolicy.new, dif_pos (hpos.mpr (Nat.pos_of_ne_zero hget)), if_neg hget]
  by_cases hput : c.putTimeout ≤ c.getTimeout
  · rw [dif_neg fun h => Nat.not_lt_of_le hput ((hlt _ _).mp h), if_pos hput, hseconds, hseconds]
    rfl
  · rw [dif_pos ((hlt _ _).mpr (Nat.lt_of_not_le hput)), if_neg hput]
    rfl

theorem validate_eq (c : Configuration) :
    c.validate = match c.violation? with
      | none => .ok ()
      | some failure => .error failure := by
  rw [validate, violation?, signPolicy_eq]
  split_ifs <;> rfl

namespace Document

theorem exists_writes (c : Configuration) (hget : c.getTimeout < Text.word64)
    (hput : c.putTimeout < Text.word64) (field : Field) : ∃ bytes, field.Writes (c.value field) bytes := by
  cases field with
  | accountName => exact exists_quoted c.accountName
  | accountKey => exact exists_quoted c.accountKey
  | containerName => exact exists_quoted c.containerName
  | environment =>
    obtain ⟨bytes, h⟩ := exists_quoted c.environment.name
    exact ⟨bytes, .text h⟩
  | getTimeout => exact ⟨_, hget, rfl⟩
  | putTimeout => exact ⟨_, hput, rfl⟩

theorem exists_listed (h : ∀ m ∈ ms, ∃ bytes, m.Writes bytes) (first : Bool) :
    ∃ body, Listed first ms body := by
  have hblank : Blank [] := List.forall_mem_nil _
  have hlead : ∀ first, ∃ lead, Lead first lead := fun first =>
    match first with
    | true => ⟨_, .first hblank⟩
    | false => ⟨_, .next hblank hblank⟩
  induction ms generalizing first with
  | nil => exact ⟨_, .nil first⟩
  | cons m ms ih =>
    obtain ⟨bytes, hbytes⟩ := h m List.mem_cons_self
    obtain ⟨lead, hlead⟩ := hlead first
    obtain ⟨body, hbody⟩ := ih (fun m hm => h m (List.mem_cons_of_mem _ hm)) false
    exact ⟨_, .cons hlead hbytes hbody⟩

-- Every configuration can be written, with all of its fields.
theorem exists_object (c : Configuration) (hget : c.getTimeout < Text.word64)
    (hput : c.putTimeout < Text.word64) : ∃ ms document, Object ms document ∧ Describes ms c := by
  have hblank : Blank [] := List.forall_mem_nil _
  have hwrites : ∀ m ∈ Field.all.map fun field => Member.given field (c.value field),
      ∃ bytes, m.Writes bytes := by
    intro m hm
    obtain ⟨field, -, rfl⟩ := List.mem_map.mp hm
    obtain ⟨key, hkey⟩ := exists_quoted field.name
    obtain ⟨bytes, h⟩ := exists_writes c hget hput field
    exact ⟨_, .given hkey hblank hblank h⟩
  obtain ⟨body, hbody⟩ := exists_listed hwrites true
  refine ⟨_, _, .mk hblank hbody hblank hblank, ?_, fun field value h => ?_, fun field h => ?_⟩
  · exact (by decide : Field.all.Nodup)
  · obtain ⟨other, -, heq⟩ := List.mem_map.mp h
    cases heq
    rfl
  · have hall : field ∈ Field.all := by cases field <;> decide
    exact absurd hall h

-- What comes of a document whose members are these.
structure ReadBack (ms : List Member) (document : Bytes) : Prop where
  described : ∀ c, Describes ms c → ofDocument document = match c.violation? with
    | none => .ok c
    | some failure => .error failure
  lacking : ∀ field, field.standard? = none → field ∉ fields ms →
    ∃ text, ofDocument document = .error (.invalidConfig text)
  repeated : ¬ (fields ms).Nodup → ∃ text, ofDocument document = .error (.invalidConfig text)

-- Every configuration can be written, every object that writes it is read back as it, and no object is
-- read that lacks a field or repeats one.
theorem ofDocument_written :
    (∀ c : Configuration, c.getTimeout < Text.word64 → c.putTimeout < Text.word64 →
        ∃ ms document, Object ms document ∧ Describes ms c) ∧
      (∀ ms document, Object ms document → ReadBack ms document) ∧
      ∀ document, Repeats document → ∃ text, ofDocument document = .error (.invalidConfig text) := by
  refine ⟨exists_object, fun ms document h => ⟨fun c hc => ?_, fun field => ofDocument_lacking h,
    ofDocument_twice h⟩, fun document => ofDocument_repeats⟩
  rw [ofDocument, read_described h hc]
  change c.validate.map (fun _ => c) = _
  rw [validate_eq]
  cases c.violation? <;> rfl

-- The fields in another order, with a member between them that does not count and an escaped character.
def shuffled : Bytes :=
  Text.utf8 ("\"note\": \"x\", \"account_key\": \"k\",\n\"container_name\" :\"\\ud83d\\uDE80\","
    ++ "\"signed_url_get_timeout\":60 , \"account_name\": \"a\"")

def shuffledMembers : List Member :=
  [.other "note" "x", .given .accountKey "k", .given .containerName "🚀", .given .getTimeout (60 : Nat),
    .given .accountName "a"]

theorem listed_shuffled : Listed true shuffledMembers shuffled := by
  have hnone : Blank [] := by decide
  have hspace : Blank [32] := by decide
  have hend : Blank [10] := by decide
  have hfirst : FourDigits 0xD83D [100, 56, 51, 100] :=
    @FourDigits.mk 13 8 3 13 _ _ _ _ (.lower (by decide) (by decide)) (.decimal (by decide))
      (.decimal (by decide)) (.lower (by decide) (by decide))
  have hsecond : FourDigits 0xDE80 [68, 69, 56, 48] :=
    @FourDigits.mk 13 14 8 0 _ _ _ _ (.upper (by decide) (by decide))
      (.upper (by decide) (by decide)) (.decimal (by decide)) (.decimal (by decide))
  have hrocket := Quoted.mk (s := "🚀")
    (.cons (.pair (by decide) (by decide) (by decide) hfirst hsecond) .nil)
  obtain ⟨body, h, heq⟩ : ∃ body, Listed true shuffledMembers body ∧ body = shuffled :=
    ⟨_, .cons (.first hnone)
        (.other (fun field => by cases field <;> decide) (quoted_plain (by decide)) hnone hspace
          (quoted_plain (by decide)))
      <| .cons (.next hnone hspace)
        (.given (quoted_plain (by decide)) hnone hspace (quoted_plain (by decide)))
      <| .cons (.next hnone hend)
        (.given (quoted_plain (by decide)) hspace hnone hrocket)
      <| .cons (.next hnone hnone)
        (.given (quoted_plain (by decide)) hnone hnone ⟨by decide, rfl⟩)
      <| .cons (.next hspace hspace)
        (.given (quoted_plain (by decide)) hnone hspace (quoted_plain (by decide)))
      <| .nil false, by decide +kernel⟩
  rwa [← heq]

def shuffledConfiguration : Configuration where
  accountName := "a"
  accountKey := "k"
  containerName := "🚀"
  environment := .worldwide
  getTimeout := 60
  putTimeout := standardPutTimeout

theorem describes_shuffled : Describes shuffledMembers shuffledConfiguration := by
  refine ⟨by decide, fun field value h => ?_, fun field h => ?_⟩
  · simp only [shuffledMembers, List.mem_cons, List.not_mem_nil, or_false] at h
    rcases h with h | h | h | h | h <;> cases h <;> rfl
  · cases field <;> first | rfl | exact absurd (by decide) h

-- Read as a document between blanks, and refused where a field comes again.
theorem ofDocument_shuffled :
    (Listed true shuffledMembers shuffled ∧ Describes shuffledMembers shuffledConfiguration) ∧
      ofDocument (32 :: 123 :: (shuffled ++ [125, 32])) = .ok shuffledConfiguration ∧
      ∃ text, ofDocument (123 :: (shuffled ++ 44 :: 34 :: (Text.utf8 Field.accountKey.name ++ [34]))) =
        .error (.invalidConfig text) := by
  have hnone : Blank [] := by decide
  have hspace : Blank [32] := by decide
  have hobject : Object shuffledMembers (32 :: 123 :: (shuffled ++ [125, 32])) := by
    have h := Object.mk hspace listed_shuffled hnone hspace
    simpa only [List.nil_append, List.singleton_append] using h
  have hrepeats :
      Repeats (123 :: (shuffled ++ 44 :: 34 :: (Text.utf8 Field.accountKey.name ++ [34]))) := by
    have hfield : Field.accountKey ∈ fields shuffledMembers := by decide
    have h := Repeats.mk hnone listed_shuffled hfield (.next hnone hnone) (quoted_plain (by decide)) []
    simpa only [List.nil_append, List.append_nil, List.singleton_append] using h
  exact ⟨⟨listed_shuffled, describes_shuffled⟩,
    (ofDocument_written.2.1 _ _ hobject).described _ describes_shuffled,
    ofDocument_written.2.2 _ hrepeats⟩

end Document

end BlobStorage.Configuration
