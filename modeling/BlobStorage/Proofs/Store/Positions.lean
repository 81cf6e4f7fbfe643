import BlobStorage.Proofs.Store.Recorded

-- The pages of a store in memory from any marker on. Markers are texts of positions, and a page comes for
-- each of them unless its end lies beyond 64 bits.
namespace BlobStorage

namespace Text

-- The texts of a number: its digits, with zeros in front of them or not, behind a plus sign or not.
def Decimal (s : String) (n : Nat) : Prop :=
  ∃ digits : List Char, (s.toList = digits ∨ s.toList = '+' :: digits) ∧ digits ≠ [] ∧
    (∀ c ∈ digits, isDigit c = true) ∧ digitsValue digits = n

theorem withoutPlus_cases (cs : List Char) : cs = withoutPlus cs ∨ cs = '+' :: withoutPlus cs := by
  unfold withoutPlus
  split
  · exact .inr rfl
  · exact .inl rfl

theorem unsigned?_eq_some_iff {bound n : Nat} {s : String} :
    unsigned? bound s = some n ↔ Decimal s n ∧ n < bound := by
  rw [unsigned?, Option.ite_none_right_eq_some, Option.some.injEq, List.all_eq_true]
  constructor
  · rintro ⟨⟨hne, hdigits, hbound⟩, rfl⟩
    exact ⟨⟨_, withoutPlus_cases s.toList, hne, hdigits, rfl⟩, hbound⟩
  · rintro ⟨⟨digits, htext, hne, hdigits, rfl⟩, hbound⟩
    have hwithout : withoutPlus s.toList = digits := by
      rcases htext with htext | htext
      · rw [htext, withoutPlus_of_digits (List.all_eq_true.mpr hdigits)]
      · rw [htext, withoutPlus]
    rw [hwithout]
    exact ⟨⟨hne, hdigits, hbound⟩, rfl⟩

end Text

namespace Memory

-- Where a listing goes on: at its beginning, or at a number that fits 64 bits.
inductive Position : Option String → Nat → Prop
  | first : Position none 0
  | at {text : String} {start : Nat} (htext : Text.Decimal text start) (hfits : start < 2 ^ 64) :
    Position (some text) start

section Position

variable {marker : Option String} {start : Nat}

theorem position_some_iff {text : String} :
    Position (some text) start ↔ Text.unsigned? Text.word64 text = some start := by
  have hword : Text.word64 = 2 ^ 64 := by decide
  rw [Text.unsigned?_eq_some_iff, hword]
  constructor
  · rintro ⟨⟩
    exact ⟨‹_›, ‹_›⟩
  · rintro ⟨htext, hfits⟩
    exact .at htext hfits

theorem startOf_eq_ok_iff : startOf marker = .ok start ↔ Position marker start := by
  cases marker with
  | none =>
    constructor
    · rintro ⟨⟩
      exact .first
    · rintro ⟨⟩
      rfl
  | some text =>
    rw [position_some_iff, startOf]
    cases Text.unsigned? Text.word64 text with
    | none => simp only [reduceCtorEq]
    | some read =>
      rw [Option.some.injEq]
      exact ⟨Except.ok.inj, congrArg Except.ok⟩

-- A marker that is no position is told as it is.
theorem startOf_of_not_position (h : ¬ ∃ start, Position marker start) :
    ∃ text, marker = some text ∧
      startOf marker = .error (.badRequest ("invalid marker " ++ text)) := by
  cases marker with
  | none => exact absurd ⟨0, .first⟩ h
  | some text =>
    refine ⟨text, rfl, ?_⟩
    cases hread : Text.unsigned? Text.word64 text with
    | none => simp only [startOf, hread]
    | some start => exact absurd ⟨start, position_some_iff.mpr hread⟩ h

theorem Position.unique {other : Nat} (h : Position marker start) (hother : Position marker other) :
    start = other :=
  Except.ok.inj ((startOf_eq_ok_iff.mpr h).symm.trans (startOf_eq_ok_iff.mpr hother))

theorem position_repr (h : start < 2 ^ 64) : Position (some (Nat.repr start)) start :=
  position_some_iff.mpr (Text.unsigned?_repr h)

end Position

-- All names that start with a text, in the order of their UTF-8 bytes.
structure Matching (catalog : Catalog) (under : String) (names : List String) : Prop where
  ascending : names.Pairwise fun a b => Text.utf8 a < Text.utf8 b
  complete : ∀ key, key ∈ names ↔ (catalog.content? key).isSome ∧ under.toList <+: key.toList

theorem keysUnder_matching (catalog : Catalog) (under : String) :
    Matching catalog under (catalog.keysUnder under) where
  ascending := (catalog.keysUnder_ascending under).imp Text.utf8_lt_utf8.mpr
  complete _ := catalog.mem_keysUnder

-- The page of some names that begins at a position. There is a marker if names are left behind it, and
-- it leads on.
structure Leaf (size : Nat) (names : List String) (start : Nat) (page : Page) : Prop where
  content : page.names = (names.drop start).take size
  next : page.next = if start + size < names.length then some (Nat.repr (start + size)) else none
  ahead : ∀ marker, page.next = some marker →
    ∃ stop, Position (some marker) stop ∧ start < stop ∧ stop < names.length
  past : names.length ≤ start → page = ⟨[], none⟩

theorem pageAt_leaf {size start : Nat} (names : List String) (hpos : 0 < size)
    (hfits : start + size < 2 ^ 64) : Leaf size names start (pageAt size start names) := by
  by_cases hmore : start + size < names.length
  · rw [pageAt_of_lt hmore]
    refine ⟨rfl, (if_pos hmore).symm, ?_, fun hpast => absurd hmore (by omega)⟩
    rintro _ ⟨⟩
    exact ⟨start + size, position_repr hfits, by omega, hmore⟩
  · have hend : names.length ≤ start + size := Nat.le_of_not_lt hmore
    rw [pageAt_of_le hend]
    refine ⟨?_, (if_neg hmore).symm, nofun, fun hpast => ?_⟩
    · rw [List.take_of_length_le (by rw [List.length_drop]; omega)]
    · rw [List.drop_eq_nil_of_le hpast]

-- What comes of asking for a page of some names. The sum of position and size is not checked before it
-- is built, so that a position is of no use if the sum does not fit 64 bits.
structure Fetched (size : Nat) (names : List String) (marker : Option String)
    (result : Except Failure Page) : Prop where
  refused : (∃ reason, result = .error (.badRequest reason)) ↔ ¬ ∃ start, Position marker start
  reason : ∀ reason, result = .error (.badRequest reason) →
    ∃ text, marker = some text ∧ reason = "invalid marker " ++ text
  came : ∀ start, Position marker start →
    ((∃ page, result = .ok page ∧ Leaf size names start page) ↔ start + size < 2 ^ 64)
  overflow : ∀ start, Position marker start → 2 ^ 64 ≤ start + size →
    result = .error .positionOverflow

namespace Fetched

variable {size : Nat} {names : List String} {marker : Option String} {result : Except Failure Page}

theorem of_position {start : Nat} (hstart : Position marker start)
    (hcame : start + size < 2 ^ 64 → ∃ page, result = .ok page ∧ Leaf size names start page)
    (hover : 2 ^ 64 ≤ start + size → result = .error .positionOverflow) :
    Fetched size names marker result := by
  have haccepted : ∀ reason, result ≠ .error (.badRequest reason) := by
    rintro reason rfl
    rcases Nat.lt_or_ge (start + size) (2 ^ 64) with hfits | hfull
    · obtain ⟨_, hpage, -⟩ := hcame hfits
      exact nomatch hpage
    · exact nomatch hover hfull
  refine ⟨?_, fun reason h => absurd h (haccepted reason), ?_, ?_⟩
  · exact iff_of_false (fun ⟨reason, h⟩ => haccepted reason h) fun h => h ⟨start, hstart⟩
  · intro other hother
    obtain rfl := hother.unique hstart
    refine ⟨fun ⟨_, hpage, _⟩ => ?_, hcame⟩
    by_contra hfull
    rw [hover (Nat.le_of_not_lt hfull)] at hpage
    exact nomatch hpage
  · intro other hother hfull
    obtain rfl := hother.unique hstart
    exact hover hfull

theorem of_not_position {text : String} (hposition : ¬ ∃ start, Position marker start)
    (hmarker : marker = some text)
    (hresult : result = .error (.badRequest ("invalid marker " ++ text))) :
    Fetched size names marker result := by
  subst hresult
  refine ⟨iff_of_true ⟨_, rfl⟩ hposition, ?_, ?_, ?_⟩
  · rintro _ ⟨⟩
    exact ⟨text, hmarker, rfl⟩
  · exact fun start hstart => absurd ⟨start, hstart⟩ hposition
  · exact fun start hstart => absurd ⟨start, hstart⟩ hposition

end Fetched

section Page

variable {settings : Settings} {under marker : Option String} (now : Instant) (store : Store)
  (hfault : faultOf? settings ⟨.listPage, under.getD ""⟩ = none)
include hfault

theorem page_result_of_unhit :
    ((backend settings now).page store under marker).result =
      (page settings under marker store.catalog).1 := by
  show (enter settings store _ _).result = _
  rw [enter_of_unhit _ _ hfault]

theorem page_overflow {start : Nat} (hstart : Position marker start)
    (hover : 2 ^ 64 ≤ start + settings.pageSize) :
    ((backend settings now).page store under marker).result = .error .positionOverflow := by
  have hword : Text.word64 ≤ start + settings.pageSize := hover
  rw [page_result_of_unhit now store hfault]
  simp only [page, look, startOf_eq_ok_iff.mpr hstart, if_pos hword]

theorem page_store :
    ((backend settings now).page store under marker).store =
      ⟨store.catalog, store.calls ++ [⟨.listPage, under.getD ""⟩]⟩ := by
  show (enter settings store _ _).store = _
  rw [enter_of_unhit _ _ hfault]
  rfl

theorem page_fetched (marker : Option String) :
    Fetched settings.pageSize (store.catalog.keysUnder (under.getD "")) marker
      ((backend settings now).page store under marker).result := by
  by_cases hposition : ∃ start, Position marker start
  · obtain ⟨start, hstart⟩ := hposition
    refine .of_position hstart (fun hfits => ?_) (page_overflow now store hfault hstart)
    rw [page_of_unhit now hfault (startOf_eq_ok_iff.mpr hstart) hfits store]
    exact ⟨_, rfl, pageAt_leaf _ settings.pageSize_pos hfits⟩
  · obtain ⟨text, hmarker, hstart⟩ := startOf_of_not_position hposition
    refine .of_not_position hposition hmarker ?_
    rw [page_result_of_unhit now store hfault]
    simp only [page, look, hstart]

end Page

-- Every marker has an answer, and nothing is changed by it: it is refused if it is no position, and the
-- page from there comes, also from behind the last name, exactly if the position and the size of a page
-- fit 64 bits together.
theorem page_from_marker (settings : Settings) (size : UInt64) (now : Instant) (store : Store)
    (under marker : Option String)
    (hfaults : ∀ fault ∈ settings.faults, fault.operation ≠ .listPage) :
    Matching store.catalog (under.getD "") (store.catalog.keysUnder (under.getD "")) ∧
      Fetched (max size.toNat 1) (store.catalog.keysUnder (under.getD "")) marker
        ((backend (settings.withPageSize size.toNat) now).page store under marker).result ∧
      ((backend (settings.withPageSize size.toNat) now).page store under marker).store =
        ⟨store.catalog, store.calls ++ [⟨.listPage, under.getD ""⟩]⟩ := by
  have hunhit : faultOf? (settings.withPageSize size.toNat) ⟨.listPage, under.getD ""⟩ = none := by
    refine faultOf?_eq_none_iff.mpr fun fault hfault => ?_
    rw [Fault.hits, beq_eq_false_iff_ne.mpr (hfaults fault hfault), Bool.false_and]
  exact ⟨keysUnder_matching _ _, page_fetched now store hunhit marker, page_store now store hunhit⟩

section Sample

-- A position with a plus sign and a zero in front of it.
theorem page_from_marker_signed :
    (∀ fault ∈ undownloadable.faults, fault.operation ≠ .listPage) ∧
      ∃ page, ((backend (undownloadable.withPageSize 2) (.ofSeconds 0)).page fourBlobs.store none
        (some "+01")).result = .ok page ∧ page.names = ["ab", "b"] ∧ page.next = some "3" := by
  have hfaults : ∀ fault ∈ undownloadable.faults, fault.operation ≠ .listPage := by decide
  have hnames : fourBlobs.store.catalog.keysUnder "" = ["a", "ab", "b", "c"] := by decide +kernel
  obtain ⟨-, hfetched, -⟩ :=
    page_from_marker undownloadable 2 (.ofSeconds 0) fourBlobs.store none (some "+01") hfaults
  have hposition : Position (some "+01") 1 := position_some_iff.mpr (by decide)
  obtain ⟨page, hpage, hleaf⟩ := (hfetched.came 1 hposition).mpr (by decide)
  have hcontent := hleaf.content
  have hnext := hleaf.next
  rw [Option.getD_none, hnames] at hcontent hnext
  exact ⟨hfaults, page, hpage, hcontent, hnext⟩

-- The last position lies behind every name and still gives no page, not even of one name.
theorem page_from_last_position :
    (∀ fault ∈ undownloadable.faults, fault.operation ≠ .listPage) ∧
      Position (some "18446744073709551615") (2 ^ 64 - 1) ∧
      fourBlobs.store.catalog.keysUnder "" = ["a", "ab", "b", "c"] ∧
      ¬ ∃ page, ((backend (undownloadable.withPageSize 1) (.ofSeconds 0)).page fourBlobs.store none
        (some "18446744073709551615")).result = .ok page := by
  have hfaults : ∀ fault ∈ undownloadable.faults, fault.operation ≠ .listPage := by decide
  have hposition : Position (some "18446744073709551615") (2 ^ 64 - 1) :=
    position_some_iff.mpr (by decide)
  refine ⟨hfaults, hposition, by decide +kernel, ?_⟩
  rintro ⟨page, hpage⟩
  rw [page_overflow _ _ (by decide) hposition (Nat.le_refl _)] at hpage
  exact nomatch hpage

end Sample

end Memory

end BlobStorage
