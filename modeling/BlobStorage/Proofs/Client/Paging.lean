import BlobStorage.Client
import BlobStorage.Proofs.Store.Catalog
import BlobStorage.Proofs.Text.Utf8
import Mathlib.Algebra.Order.Floor.Div

-- The pages of a listing over memory are the whole listing, whatever their size.
namespace BlobStorage

-- The markers that a listing asks for: the first, and then each one that a page names.
def Page.asked (marker : Option String) (pages : List Page) : List (Option String) :=
  marker :: (pages.filterMap (·.next)).map some

-- The pages that a store gives from a marker on, each asked for by the marker of the one before.
inductive Backend.Pages {σ : Type} (b : Backend σ) (under : Option String) :
    Option String → σ → List Page → σ → Prop
  | last {marker s names events s'} (h : b.page s under marker = ⟨.ok ⟨names, none⟩, events, s'⟩) :
    Pages b under marker s [⟨names, none⟩] s'
  | next {marker s names next events s' pages s''}
    (h : b.page s under marker = ⟨.ok ⟨names, some next⟩, events, s'⟩)
    (hrest : Pages b under (some next) s' pages s'') :
    Pages b under marker s (⟨names, some next⟩ :: pages) s''

namespace Client

variable {σ : Type} (c : Client σ) (under marker : Option String) (s : Session σ)

theorem pagesFrom_error {failure : Failure} {events : List Event} {store : σ}
    (h : c.backend.page s.store under marker = ⟨.error failure, events, store⟩) :
    c.pagesFrom under marker s =
      (.error failure, { s with store := store, events := s.events ++ events }) := by
  rw [pagesFrom]
  split
  · rename_i heq
    rw [h] at heq
    cases heq
    rfl
  · rename_i heq
    rw [h] at heq
    cases heq
  · rename_i heq
    rw [h] at heq
    cases heq

theorem pagesFrom_last {names : List String} {events : List Event} {store : σ}
    (h : c.backend.page s.store under marker = ⟨.ok ⟨names, none⟩, events, store⟩) :
    c.pagesFrom under marker s =
      (.ok names, { s with store := store, events := s.events ++ events }) := by
  rw [pagesFrom]
  split
  · rename_i heq
    rw [h] at heq
    cases heq
  · rename_i heq
    rw [h] at heq
    cases heq
    rfl
  · rename_i heq
    rw [h] at heq
    cases heq

theorem pagesFrom_next {names : List String} {next : String} {events : List Event} {store : σ}
    (h : c.backend.page s.store under marker = ⟨.ok ⟨names, some next⟩, events, store⟩) :
    c.pagesFrom under marker s =
      match c.pagesFrom under (some next)
          { s with store := store, events := s.events ++ events } with
      | (.ok more, s) => (.ok (names ++ more), s)
      | (.error failure, s) => (.error failure, s) := by
  rw [pagesFrom]
  split
  · rename_i heq
    rw [h] at heq
    cases heq
  · rename_i heq
    rw [h] at heq
    cases heq
  · rename_i heq
    rw [h] at heq
    cases heq
    rfl

theorem pagesFrom_pages {c : Client σ} {under marker : Option String} {store store' : σ}
    {pages : List Page} (h : c.backend.Pages under marker store pages store') (files : Files)
    (events : List Event) :
    ∃ more, c.pagesFrom under marker ⟨store, files, events⟩ =
      (.ok (pages.flatMap (·.names)), ⟨store', files, events ++ more⟩) := by
  induction h generalizing events with
  | last h => exact ⟨_, by rw [pagesFrom_last _ _ _ _ h, List.flatMap_singleton]⟩
  | @next _ _ _ _ noted _ _ _ h _ ih =>
    obtain ⟨more, hrest⟩ := ih (events ++ noted)
    refine ⟨noted ++ more, ?_⟩
    rw [pagesFrom_next _ _ _ _ h, hrest, List.flatMap_cons, List.append_assoc]

theorem scope_getD (under : String) : (scope under).getD "" = under := by
  unfold scope
  split
  · rename_i hempty
    exact hempty.symm
  · rfl

end Client

namespace Memory

variable {settings : Settings}

-- The first fault that hits a call.
def faultOf? (settings : Settings) (call : Call) : Option Fault := settings.faults.find? (·.hits call)

section Enter

variable {α : Type} {call : Call} (store : Store) (effect : Effect α)

theorem enter_of_hit {fault : Fault} (h : faultOf? settings call = some fault) :
    enter settings store call effect =
      ⟨.error (fault.failure call.key), [], store.catalog, store.calls ++ [call]⟩ := by
  unfold faultOf? at h
  simp only [enter, attempt, h]

theorem enter_of_unhit (h : faultOf? settings call = none) :
    enter settings store call effect =
      ⟨(effect store.catalog).1, [], (effect store.catalog).2, store.calls ++ [call]⟩ := by
  unfold faultOf? at h
  simp only [enter, attempt, h]

variable (s : Session Store)

theorem call_of_hit {fault : Fault} (h : faultOf? settings call = some fault) :
    s.call (enter settings · call effect) =
      (.error (fault.failure call.key),
        { s with store := ⟨s.store.catalog, s.store.calls ++ [call]⟩ }) := by
  rw [Session.call, enter_of_hit _ _ h]
  simp only [List.append_nil]

theorem call_of_unhit (h : faultOf? settings call = none) :
    s.call (enter settings · call effect) =
      ((effect s.store.catalog).1,
        { s with store := ⟨(effect s.store.catalog).2, s.store.calls ++ [call]⟩ }) := by
  rw [Session.call, enter_of_unhit _ _ h]
  simp only [List.append_nil]

end Enter

-- How many pages of a size it takes for a number of names. There is at least one.
def pageCount (size count : Nat) : Nat := (count - 1) / size + 1

section Count

variable {size count : Nat} (hpos : 0 < size)
include hpos

theorem pageCount_of_le (h : count ≤ size) : pageCount size count = 1 := by
  rw [pageCount, Nat.div_eq_of_lt (by omega)]

theorem pageCount_of_lt (h : size < count) :
    pageCount size count = pageCount size (count - size) + 1 := by
  have hcount : count - 1 = count - size - 1 + size := by omega
  rw [pageCount, hcount, Nat.add_div_right _ hpos, pageCount]

theorem pageCount_eq_max : pageCount size count = max 1 (count ⌈/⌉ size) := by
  rw [Nat.ceilDiv_eq_add_pred_div]
  cases count with
  | zero =>
    have hnone : (0 + size - 1) / size = 0 := Nat.div_eq_of_lt (by omega)
    rw [hnone, pageCount_of_le hpos (Nat.zero_le size)]
    rfl
  | succ before =>
    have hsum : before + 1 + size - 1 = before + size := by omega
    rw [hsum, Nat.add_div_right _ hpos, pageCount, Nat.add_sub_cancel,
      Nat.max_eq_right (Nat.le_add_left 1 _)]

end Count

-- How names stand on pages of a size: all pages but the last are full, and the last has a name if
-- there is one at all.
structure Paged (size : Nat) (names : List String) (pages : List Page) : Prop where
  content : pages.flatMap (·.names) = names
  count : pages.length = pageCount size names.length
  full : ∀ page ∈ pages.dropLast, page.names.length = size
  last : ∃ page, pages.getLast? = some page ∧ page.names.length ≤ size ∧
    (page.names = [] ↔ names = [])

namespace Paged

variable {size : Nat} {names : List String} {pages : List Page} (hpos : 0 < size)
include hpos

theorem single (h : names.length ≤ size) : Paged size names [⟨names, none⟩] where
  content := List.append_nil names
  count := (pageCount_of_le hpos h).symm
  full := nofun
  last := ⟨⟨names, none⟩, rfl, h, Iff.rfl⟩

theorem cons {found : List String} (next : Option String) (hfound : found.length = size)
    (hnames : names ≠ []) (h : Paged size names pages) :
    Paged size (found ++ names) (⟨found, next⟩ :: pages) := by
  obtain ⟨page, hlast, hsize, hempty⟩ := h.last
  have hpages : pages ≠ [] := by
    rintro rfl
    exact nomatch hlast
  refine ⟨?_, ?_, ?_, page, ?_, hsize, ?_⟩
  · rw [List.flatMap_cons, h.content]
  · have hmore : 0 < names.length := List.length_pos_iff.mpr hnames
    rw [List.length_cons, h.count, List.length_append, hfound,
      pageCount_of_lt hpos (Nat.lt_add_of_pos_right hmore), Nat.add_sub_cancel_left]
  · rw [List.dropLast_cons_of_ne_nil hpages]
    exact List.forall_mem_cons.mpr ⟨hfound, h.full⟩
  · rwa [List.getLast?_cons_of_ne_nil hpages]
  · exact iff_of_false (mt hempty.mp hnames) fun hnil => hnames (List.append_eq_nil_iff.mp hnil).2

end Paged

section PageAt

variable {pageSize start : Nat} {names : List String}

theorem pageAt_of_lt (h : start + pageSize < names.length) :
    pageAt pageSize start names =
      ⟨(names.drop start).take pageSize, some (Nat.repr (start + pageSize))⟩ := by
  rw [pageAt, Nat.min_eq_left (by omega), if_pos h, List.drop_take, Nat.add_sub_cancel_left]

theorem pageAt_of_le (h : names.length ≤ start + pageSize) :
    pageAt pageSize start names = ⟨names.drop start, none⟩ := by
  rw [pageAt, Nat.min_eq_right h, if_neg (Nat.lt_irrefl _), List.take_length]

end PageAt

section Pages

variable (now : Instant) {under : Option String}

theorem page_of_unhit (hfault : faultOf? settings ⟨.listPage, under.getD ""⟩ = none) {start : Nat}
    {marker : Option String} (hstart : startOf marker = .ok start)
    (hroom : start + settings.pageSize < Text.word64) (store : Store) :
    (backend settings now).page store under marker =
      ⟨.ok (pageAt settings.pageSize start (store.catalog.keysUnder (under.getD ""))), [],
        store.catalog, store.calls ++ [⟨.listPage, under.getD ""⟩]⟩ := by
  show enter settings store _ _ = _
  rw [enter_of_unhit _ _ hfault]
  simp only [page, look, hstart, if_neg (Nat.not_le_of_lt hroom)]

-- Every marker but the first stands behind a whole page, so that the positions fit a word as long as
-- twice the number of names does.
theorem exists_pages (hfault : faultOf? settings ⟨.listPage, under.getD ""⟩ = none)
    (hsize : settings.pageSize < Text.word64) {catalog : Catalog} {names : List String}
    (hnames : catalog.keysUnder (under.getD "") = names)
    (hcount : 2 * names.length ≤ Text.word64) {marker : Option String} {start : Nat}
    (hstart : startOf marker = .ok start)
    (hbehind : start = 0 ∨ settings.pageSize ≤ start ∧ start < names.length) (calls : List Call) :
    ∃ pages,
      (backend settings now).Pages under marker ⟨catalog, calls⟩ pages
        ⟨catalog, calls ++ List.replicate pages.length ⟨.listPage, under.getD ""⟩⟩ ∧
      Paged settings.pageSize (names.drop start) pages := by
  have hpos := settings.pageSize_pos
  induction hleft : names.length - start using Nat.strongRecOn generalizing marker start calls with
  | ind left ih =>
    have hpage := page_of_unhit now hfault hstart (by omega) ⟨catalog, calls⟩
    rw [hnames] at hpage
    by_cases hmore : start + settings.pageSize < names.length
    · rw [pageAt_of_lt hmore] at hpage
      have hmarker : startOf (some (Nat.repr (start + settings.pageSize))) =
          .ok (start + settings.pageSize) := by
        rw [startOf, Text.unsigned?_repr (by omega)]
      obtain ⟨pages, hpages, hpaged⟩ :=
        ih (names.length - (start + settings.pageSize)) (by omega) hmarker (by omega)
          (calls ++ [⟨.listPage, under.getD ""⟩]) rfl
      have hfull : ((names.drop start).take settings.pageSize).length = settings.pageSize := by
        rw [List.length_take, List.length_drop]
        omega
      have hrest : names.drop (start + settings.pageSize) ≠ [] := by
        rw [ne_eq, List.drop_eq_nil_iff]
        omega
      have hsplit := List.take_append_drop settings.pageSize (names.drop start)
      rw [List.drop_drop] at hsplit
      have hcons := hpaged.cons hpos (some (Nat.repr (start + settings.pageSize))) hfull hrest
      rw [hsplit] at hcons
      refine ⟨_, .next hpage ?_, hcons⟩
      rw [List.append_assoc, List.singleton_append] at hpages
      exact hpages
    · rw [pageAt_of_le (Nat.le_of_not_lt hmore)] at hpage
      refine ⟨_, .last hpage, .single hpos ?_⟩
      rw [List.length_drop]
      omega

-- No page that came was asked for at a position whose end does not fit a word.
theorem fits_of_pages {marker : Option String} {store store' : Store} {pages : List Page}
    (h : (backend settings now).Pages under marker store pages store') :
    ∀ asked ∈ Page.asked marker pages, ∃ start, startOf asked = .ok start ∧
      start + settings.pageSize < Text.word64 := by
  have hcame : ∀ {marker store found}, ((backend settings now).page store under marker).result =
      .ok found → ∃ start, startOf marker = .ok start ∧ start + settings.pageSize < Text.word64 := by
    intro marker store found hpage
    obtain ⟨start, hstart, hroom, -⟩ := attempt_page_ok hpage
    exact ⟨start, hstart, hroom⟩
  induction h with
  | last hpage => exact List.forall_mem_singleton.mpr (hcame (congrArg Reply.result hpage))
  | next hpage _ ih => exact List.forall_mem_cons.mpr ⟨hcame (congrArg Reply.result hpage), ih⟩

end Pages

variable (now : Instant) (policy : SignPolicy)

section List

variable (s : Session Store)

theorem list_of_hit {under : String} {fault : Fault}
    (h : faultOf? settings ⟨.listPage, under⟩ = some fault) :
    (Client.list ⟨backend settings now, policy⟩ under s).1 = .error (fault.failure under) ∧
      (Client.list ⟨backend settings now, policy⟩ under s).2.store =
        ⟨s.store.catalog, s.store.calls ++ [⟨.listPage, under⟩]⟩ ∧
      (Client.list ⟨backend settings now, policy⟩ under s).2.files = s.files := by
  have hpage : (backend settings now).page s.store (Client.scope under) none =
      ⟨.error (fault.failure under), [], s.store.catalog,
        s.store.calls ++ [⟨.listPage, under⟩]⟩ := by
    show enter settings s.store ⟨.listPage, (Client.scope under).getD ""⟩ _ = _
    rw [Client.scope_getD, enter_of_hit _ _ h]
  have hpages := Client.pagesFrom_error ⟨backend settings now, policy⟩ _ _ _ hpage
  simp only [Client.list, hpages]
  exact ⟨trivial, trivial, trivial⟩

theorem listing (store : Store) {under : String}
    (h : faultOf? settings ⟨.listPage, under⟩ = none) (hsize : settings.pageSize < Text.word64)
    (hcount : 2 * (store.catalog.keysUnder under).length ≤ Text.word64) :
    ∃ pages,
      (backend settings now).Pages (Client.scope under) none store pages
        ⟨store.catalog, store.calls ++ List.replicate pages.length ⟨.listPage, under⟩⟩ ∧
      Paged settings.pageSize (store.catalog.keysUnder under) pages := by
  have hscope := Client.scope_getD under
  have hfault : faultOf? settings ⟨.listPage, (Client.scope under).getD ""⟩ = none := by rwa [hscope]
  have hstart : startOf none = .ok 0 := rfl
  have hpages := exists_pages now hfault hsize rfl (by rwa [hscope]) hstart (.inl rfl) store.calls
  rwa [hscope] at hpages

theorem list_of_pages {under : String} {pages : List Page} {store : Store}
    (h : (backend settings now).Pages (Client.scope under) none s.store pages store) :
    (Client.list ⟨backend settings now, policy⟩ under s).1 = .ok (pages.flatMap (·.names)) ∧
      (Client.list ⟨backend settings now, policy⟩ under s).2.store = store ∧
      (Client.list ⟨backend settings now, policy⟩ under s).2.files = s.files := by
  obtain ⟨more, hpages⟩ :=
    Client.pagesFrom_pages (c := ⟨backend settings now, policy⟩) h s.files s.events
  simp only [Client.list, hpages, Session.note]
  exact ⟨trivial, trivial, trivial⟩

theorem list_of_unhit {under : String} (h : faultOf? settings ⟨.listPage, under⟩ = none)
    (hsize : settings.pageSize < Text.word64)
    (hcount : 2 * s.store.catalog.keys.length ≤ Text.word64) :
    (Client.list ⟨backend settings now, policy⟩ under s).1 =
        .ok (s.store.catalog.keysUnder under) ∧
      (Client.list ⟨backend settings now, policy⟩ under s).2.store =
        ⟨s.store.catalog, s.store.calls ++ List.replicate
          (pageCount settings.pageSize (s.store.catalog.keysUnder under).length)
          ⟨.listPage, under⟩⟩ ∧
      (Client.list ⟨backend settings now, policy⟩ under s).2.files = s.files := by
  have hfits : 2 * (s.store.catalog.keysUnder under).length ≤ Text.word64 := by
    have hlength := s.store.catalog.length_keysUnder under
    omega
  obtain ⟨pages, hcame, hpaged⟩ := listing now s.store h hsize hfits
  obtain ⟨hnames, hstore, hfiles⟩ := list_of_pages now policy s hcame
  rw [hpaged.content] at hnames
  rw [hpaged.count] at hstore
  exact ⟨hnames, hstore, hfiles⟩

end List

-- A listing of a store: the names in the order of their UTF-8 bytes, the pages on which they came, and
-- the markers that were asked for.
structure Listing (settings : Settings) (store : Store) (under : String) (names : List String)
    (pages : List Page) : Prop where
  ascending : names.Pairwise fun a b => Text.utf8 a < Text.utf8 b
  complete : ∀ key, key ∈ names ↔
    (store.catalog.content? key).isSome ∧ under.toList <+: key.toList
  paged : Paged settings.pageSize names pages
  came : (backend settings now).Pages (Client.scope under) none store pages
    ⟨store.catalog, store.calls ++ List.replicate pages.length ⟨.listPage, under⟩⟩
  fits : ∀ marker ∈ Page.asked none pages, ∃ start, startOf marker = .ok start ∧
    start + settings.pageSize < Text.word64

-- Whatever the size of the pages is, a listing gives every name that starts with the text once, with
-- as many calls as there are pages to fill.
theorem list_pages (settings : Settings) (size : UInt64) (under : String) (s : Session Store)
    (hfaults : ∀ fault ∈ settings.faults, fault.operation ≠ .listPage)
    (hcount : (s.store.catalog.keysUnder under).length < 2 ^ 63) :
    (∃ pages, Listing now (settings.withPageSize size.toNat) s.store under
        (s.store.catalog.keysUnder under) pages) ∧
      (Client.list ⟨backend (settings.withPageSize size.toNat) now, policy⟩ under s).1 =
        .ok (s.store.catalog.keysUnder under) ∧
      (Client.list ⟨backend (settings.withPageSize size.toNat) now, policy⟩ under s).2.store =
        ⟨s.store.catalog, s.store.calls ++ List.replicate
          (max 1 ((s.store.catalog.keysUnder under).length ⌈/⌉ max size.toNat 1))
          ⟨.listPage, under⟩⟩ := by
  have hunhit : faultOf? (settings.withPageSize size.toNat) ⟨.listPage, under⟩ = none := by
    rw [faultOf?, List.find?_eq_none]
    intro fault hfault hhits
    rw [Fault.hits, Bool.and_eq_true, beq_iff_eq] at hhits
    exact hfaults fault hfault hhits.1
  have hsize : (settings.withPageSize size.toNat).pageSize < Text.word64 := by
    have hword := size.toNat_lt
    show max size.toNat 1 < Text.word64
    rw [Text.word64]
    omega
  obtain ⟨pages, hcame, hpaged⟩ := listing now s.store hunhit hsize (by rw [Text.word64]; omega)
  obtain ⟨hnames, hstore, -⟩ := list_of_pages now policy s hcame
  refine ⟨⟨pages, ?_, fun _ => s.store.catalog.mem_keysUnder, hpaged, hcame, ?_⟩, ?_, ?_⟩
  · exact (s.store.catalog.keysUnder_ascending under).imp Text.utf8_lt_utf8.mpr
  · exact fits_of_pages now hcame
  · rw [hnames, hpaged.content]
  · rw [hstore, hpaged.count, pageCount_eq_max (Settings.pageSize_pos _)]
    rfl

section Sample

-- Four names fill two pages of two, and the fault is one of another operation.
def fourBlobs : Session Store :=
  ⟨⟨(((Catalog.empty.put "c" []).put "a" []).put "ab" []).put "b" [], []⟩, Files.empty, []⟩

def undownloadable : Settings := { pageSize := 4, faults := [⟨.download, none, .blobNotFound⟩] }

theorem list_pages_even :
    (∀ fault ∈ undownloadable.faults, fault.operation ≠ .listPage) ∧
      (fourBlobs.store.catalog.keysUnder "").length < 2 ^ 63 ∧
      (Client.list ⟨backend (undownloadable.withPageSize 2) (.ofSeconds 0), .standard⟩ "" fourBlobs).1 =
        .ok ["a", "ab", "b", "c"] ∧
      (Client.list ⟨backend (undownloadable.withPageSize 2) (.ofSeconds 0), .standard⟩ ""
        fourBlobs).2.store.calls = [⟨.listPage, ""⟩, ⟨.listPage, ""⟩] := by
  have hfaults : ∀ fault ∈ undownloadable.faults, fault.operation ≠ .listPage := by decide
  have hnames : fourBlobs.store.catalog.keysUnder "" = ["a", "ab", "b", "c"] := by decide +kernel
  have hcount : (fourBlobs.store.catalog.keysUnder "").length < 2 ^ 63 := by
    rw [hnames]
    decide
  obtain ⟨-, hresult, hstore⟩ :=
    list_pages (.ofSeconds 0) .standard undownloadable 2 "" fourBlobs hfaults hcount
  rw [hnames] at hresult hstore
  refine ⟨hfaults, hcount, hresult, ?_⟩
  show (Client.list ⟨backend (undownloadable.withPageSize (2 : UInt64).toNat) (.ofSeconds 0), .standard⟩
    "" fourBlobs).2.store.calls = _
  rw [hstore]
  rfl

end Sample

end Memory

end BlobStorage
