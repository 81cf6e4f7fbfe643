import BlobStorage.Proofs.Client.Paging
import BlobStorage.Proofs.Files

-- Downloads over memory: whatever a file held and however it was opened, one that succeeds leaves it with
-- the size of the blob.
namespace BlobStorage

namespace Client

open Files

section Steps

variable {σ : Type} {s : Session σ} {path : String} {handle : Handle} {old content : Bytes}

theorem receive_of_none {delivery : Delivery}
    (hwritten : handle.mode.written? old delivery.content = none) :
    receive delivery handle s = (.error (.io .badDescriptor), s) := by
  rw [receive, write_of_none hwritten]

theorem get_of_error {c : Client σ} {key : String} {failure : Failure} {s' : Session σ}
    (h : c.download key handle s = (.error failure, s')) :
    c.get key handle s = (.error failure, s') := by
  rw [get, h]

theorem get_of_ok {c : Client σ} {key : String} {reported : Nat} {s' : Session σ}
    (h : c.download key handle s = (.ok reported, s')) :
    c.get key handle s = adjust key reported handle s' := by
  rw [get, h]

variable (hopened : s.files.Opened path handle old)
include hopened

theorem receive_of_some {delivery : Delivery}
    (hwritten : handle.mode.written? old delivery.content = some content) :
    ∃ files, receive delivery handle s = (delivery.size, { s with files := files }) ∧
      Wrote s.files files path handle content := by
  obtain ⟨files, hwrite, hwrote⟩ := hopened.write_of_some hwritten
  exact ⟨files, by rw [receive, hwrite], hwrote⟩

-- A file that was opened to be read cannot be cut or filled up, which only matters where it has to be.
theorem adjust_eq (key : String) (reported : Nat) :
    ∃ files, adjust key reported handle s =
        (if old.length ≠ reported ∧ handle.mode = .readOnly then .error (.io .invalidArgument) else .ok (),
          { s with
            files := files
            events := s.events ++ if old.length = reported then []
              else [resizing key old.length reported] }) ∧
      Wrote s.files files path handle
        (if handle.mode = .readOnly then old else old.takeD reported 0) := by
  by_cases hlength : old.length = reported
  · have hsame : old.takeD reported 0 = old := by
      rw [List.takeD_eq_take 0 (Nat.le_of_eq hlength.symm), ← hlength, List.take_length]
    refine ⟨s.files, ?_, ?_⟩
    · rw [adjust, Files.length, hopened.holds, if_pos hlength, if_neg fun h => h.1 hlength,
        if_pos hlength, List.append_nil]
    · rw [hsame, ite_self]
      exact hopened.same
  · by_cases hmode : handle.mode = .readOnly
    · refine ⟨s.files, ?_, ?_⟩
      · rw [adjust, Files.length, hopened.holds, if_neg hlength, if_neg hlength,
          if_pos ⟨hlength, hmode⟩]
        simp only [Session.note, setLength, if_pos hmode]
      · rw [if_pos hmode]
        exact hopened.same
    · obtain ⟨files, hset, hwrote⟩ := hopened.setLength_of_writable hmode reported
      refine ⟨files, ?_, ?_⟩
      · rw [adjust, Files.length, hopened.holds, if_neg hlength, if_neg hlength,
          if_neg fun h => hmode h.2]
        simp only [Session.note, hset]
      · rwa [if_neg hmode]

end Steps

end Client

namespace Memory

open Files

variable {settings : Settings} {key path : String} {handle : Handle} {old : Bytes}

-- The session after a download was asked for.
def called (s : Session Store) (key : String) : Session Store :=
  { s with store := ⟨s.store.catalog, s.store.calls ++ [⟨.download, key⟩]⟩ }

section Download

variable (now : Instant) (policy : SignPolicy) (handle : Handle) (s : Session Store)

theorem download_of_hit {fault : Fault} (h : faultOf? settings ⟨.download, key⟩ = some fault) :
    Client.download ⟨backend settings now, policy⟩ key handle s =
      (.error (fault.failure key), called s key) := by
  have hcall : s.call ((backend settings now).download · key) =
      (.error (fault.failure key), called s key) := call_of_hit (download settings key) s h
  simp only [Client.download, hcall]

theorem download_of_unhit (h : faultOf? settings ⟨.download, key⟩ = none) :
    Client.download ⟨backend settings now, policy⟩ key handle s =
      match s.store.catalog.content? key with
      | none => (.error (.blobNotFound key), called s key)
      | some blob => Client.receive (deliver settings blob) handle (called s key) := by
  have hcall : s.call ((backend settings now).download · key) =
      ((present s.store.catalog key).map (deliver settings), called s key) :=
    call_of_unhit (download settings key) s h
  simp only [Client.download, hcall, present]
  cases s.store.catalog.content? key <;> rfl

end Download

-- What becomes of a file that held something when it was opened, of the result, and of what is noted,
-- by how the download went.
structure Got (settings : Settings) (key path : String) (handle : Handle) (old : Bytes)
    (before : Session Store) (download : Except Failure Nat × Session Store)
    (outcome : Except Failure Unit × Session Store) : Prop where
  sized : outcome.1 = .ok () → ∃ blob content, before.store.catalog.content? key = some blob ∧
    outcome.2.files.read path = .ok content ∧ content.length = blob.length
  -- the bytes that came stand in front of what the file held behind them
  placed : ∀ blob, faultOf? settings ⟨.download, key⟩ = none →
    before.store.catalog.content? key = some blob → handle.mode = .create ∨ handle.mode = .existing →
      outcome.1 = .ok () ∧
        outcome.2.files.read path = .ok (((deliver settings blob).content ++
          old.drop (deliver settings blob).content.length).takeD blob.length 0)
  appended : ∀ blob, faultOf? settings ⟨.download, key⟩ = none →
    before.store.catalog.content? key = some blob → handle.mode = .append →
      outcome.1 = .ok () ∧
        outcome.2.files.read path = .ok ((old ++ (deliver settings blob).content).takeD blob.length 0)
  -- nothing can be written: this succeeds only where nothing has to be
  looked : ∀ blob, faultOf? settings ⟨.download, key⟩ = none →
    before.store.catalog.content? key = some blob → handle.mode = .readOnly →
      (outcome.1 = .ok () ↔ (deliver settings blob).content = [] ∧ old.length = blob.length) ∧
        outcome.2.files.read path = .ok old
  -- the length that counts is that of the file as the download left it
  warned : ∀ reported between, download = (.ok reported, between) →
    ∃ blob filled, before.store.catalog.content? key = some blob ∧ reported = blob.length ∧
      handle.mode.written? old (deliver settings blob).content = some filled ∧
      between.files.read path = .ok filled ∧
      outcome.2.events = before.events ++
        if filled.length = reported then [] else [Client.resizing key filled.length reported]
  failed : ∀ failure between, download = (.error failure, between) →
    outcome = (.error failure, between) ∧ between.files = before.files ∧
      between.events = before.events
  unchanged : before.store.catalog.content? key = none ∨ faultOf? settings ⟨.download, key⟩ ≠ none →
    (∃ failure, outcome.1 = .error failure) ∧ outcome.2.files = before.files
  elsewhere : ∀ place, place ≠ handle.place →
    outcome.2.files.node? place = before.files.node? place

namespace Got

variable {s : Session Store}

-- A download that failed, because nothing came or because what came could not be written.
theorem of_failed (failure : Failure) (hopened : s.files.Opened path handle old)
    (h : ∀ blob, faultOf? settings ⟨.download, key⟩ = none → s.store.catalog.content? key = some blob →
      handle.mode.written? old (deliver settings blob).content = none) :
    Got settings key path handle old s (.error failure, called s key)
      (.error failure, called s key) where
  sized hok := nomatch hok
  placed blob hfault hblob hmode := by
    have hnone := h blob hfault hblob
    rcases hmode with hmode | hmode <;> rw [hmode] at hnone <;> exact nomatch hnone
  appended blob hfault hblob hmode := by
    have hnone := h blob hfault hblob
    rw [hmode] at hnone
    exact nomatch hnone
  looked blob hfault hblob hmode := by
    have hnone := h blob hfault hblob
    rw [hmode] at hnone
    refine ⟨iff_of_false nofun fun hempty => ?_, hopened.reads⟩
    rw [hempty.1] at hnone
    exact nomatch hnone
  warned _ _ heq := nomatch congrArg Prod.fst heq
  failed other between heq := by
    obtain ⟨hfailure, rfl⟩ := Prod.mk.inj heq
    obtain rfl := Except.error.inj hfailure
    exact ⟨rfl, rfl, rfl⟩
  unchanged _ := ⟨⟨failure, rfl⟩, rfl⟩
  elsewhere _ _ := rfl

-- A file that can be written is cut or filled up wherever it has to be.
theorem resized {filled : Bytes} {size : Nat} {files files' : Files}
    (hmode : handle.mode ≠ .readOnly)
    (hfinal : Wrote files files' path handle
      (if handle.mode = .readOnly then filled else filled.takeD size 0)) :
    (if filled.length ≠ size ∧ handle.mode = .readOnly then .error (.io .invalidArgument)
        else .ok () : Except Failure Unit) = .ok () ∧
      files'.read path = .ok (filled.takeD size 0) := by
  have hreads := hfinal.opened.reads
  rw [if_neg hmode] at hreads
  exact ⟨if_neg fun h => hmode h.2, hreads⟩

theorem of_filled {blob filled : Bytes} {files files' : Files}
    (hfault : faultOf? settings ⟨.download, key⟩ = none)
    (hblob : s.store.catalog.content? key = some blob)
    (hwritten : handle.mode.written? old (deliver settings blob).content = some filled)
    (hfilled : Wrote s.files files path handle filled)
    (hfinal : Wrote files files' path handle
      (if handle.mode = .readOnly then filled else filled.takeD blob.length 0)) :
    Got settings key path handle old s (.ok blob.length, { called s key with files := files })
      (if filled.length ≠ blob.length ∧ handle.mode = .readOnly then .error (.io .invalidArgument)
          else .ok (),
        { called s key with
          files := files'
          events := s.events ++ if filled.length = blob.length then []
            else [Client.resizing key filled.length blob.length] }) where
  sized hok := by
    refine ⟨blob, _, hblob, hfinal.opened.reads, ?_⟩
    split
    · rename_i hmode
      by_contra hlength
      rw [if_pos ⟨hlength, hmode⟩] at hok
      cases hok
    · rw [List.takeD_length]
  placed blob' _ hblob' hmode := by
    obtain rfl := Option.some.inj (hblob.symm.trans hblob')
    have hplaced : (deliver settings blob).content ++
        old.drop (deliver settings blob).content.length = filled := by
      rcases hmode with hmode | hmode <;> rw [hmode] at hwritten <;> exact Option.some.inj hwritten
    have hwritable : handle.mode ≠ .readOnly := by
      rcases hmode with hmode | hmode <;> rw [hmode] <;> decide
    rw [hplaced]
    exact resized hwritable hfinal
  appended blob' _ hblob' hmode := by
    obtain rfl := Option.some.inj (hblob.symm.trans hblob')
    have happended : old ++ (deliver settings blob).content = filled := by
      rw [hmode] at hwritten
      exact Option.some.inj hwritten
    have hwritable : handle.mode ≠ .readOnly := by
      rw [hmode]
      decide
    rw [happended]
    exact resized hwritable hfinal
  looked blob' _ hblob' hmode := by
    obtain rfl := Option.some.inj (hblob.symm.trans hblob')
    have hreads := hfinal.opened.reads
    rw [hmode, Mode.written?, Option.ite_none_right_eq_some, Option.some.injEq] at hwritten
    obtain ⟨hempty, rfl⟩ := hwritten
    rw [if_pos hmode] at hreads
    refine ⟨?_, hreads⟩
    by_cases hlength : old.length = blob.length
    · rw [if_neg fun h => h.1 hlength]
      exact iff_of_true rfl ⟨hempty, hlength⟩
    · rw [if_pos ⟨hlength, hmode⟩]
      refine iff_of_false (fun hok => ?_) fun h => hlength h.2
      cases hok
  warned reported between heq := by
    obtain ⟨hreported, rfl⟩ := Prod.mk.inj heq
    obtain rfl := Except.ok.inj hreported
    exact ⟨blob, filled, hblob, rfl, hwritten, hfilled.opened.reads, rfl⟩
  failed _ _ heq := by cases congrArg Prod.fst heq
  unchanged h := by
    rcases h with hnone | hhit
    · cases hblob.symm.trans hnone
    · exact absurd hfault hhit
  elsewhere := (hfilled.trans hfinal).elsewhere

-- Where all of the blob came, the file is the blob, whatever was in it.
theorem whole {blob : Bytes} {download : Except Failure Nat × Session Store}
    {outcome : Except Failure Unit × Session Store}
    (h : Got settings key path handle old s download outcome)
    (hshort : settings.shortDownloads = false) (hfault : faultOf? settings ⟨.download, key⟩ = none)
    (hblob : s.store.catalog.content? key = some blob)
    (hmode : handle.mode = .create ∨ handle.mode = .existing) :
    outcome.1 = .ok () ∧ outcome.2.files.read path = .ok blob := by
  obtain ⟨hok, hreads⟩ := h.placed blob hfault hblob hmode
  have hdelivered : (deliver settings blob).content = blob := by
    rw [deliver, hshort]
    rfl
  rw [hdelivered, List.takeD_left] at hreads
  exact ⟨hok, hreads⟩

end Got

theorem got_opened (settings : Settings) (key : String) (now : Instant) (policy : SignPolicy)
    (s : Session Store) (hopened : s.files.Opened path handle old) :
    Got settings key path handle old s
      (Client.download ⟨backend settings now, policy⟩ key handle s)
      (Client.get ⟨backend settings now, policy⟩ key handle s) := by
  cases hfault : faultOf? settings ⟨.download, key⟩ with
  | some fault =>
    have hdownload := download_of_hit now policy handle s hfault
    rw [Client.get_of_error hdownload, hdownload]
    exact .of_failed _ hopened fun _ hnone => nomatch hfault.symm.trans hnone
  | none =>
    have hdownload := download_of_unhit now policy handle s hfault
    cases hblob : s.store.catalog.content? key with
    | none =>
      simp only [hblob] at hdownload
      rw [Client.get_of_error hdownload, hdownload]
      exact .of_failed _ hopened fun _ _ hsome => nomatch hblob.symm.trans hsome
    | some blob =>
      simp only [hblob] at hdownload
      cases hwritten : handle.mode.written? old (deliver settings blob).content with
      | none =>
        rw [Client.receive_of_none hwritten] at hdownload
        rw [Client.get_of_error hdownload, hdownload]
        refine .of_failed _ hopened fun blob' _ hblob' => ?_
        obtain rfl := Option.some.inj (hblob.symm.trans hblob')
        exact hwritten
      | some filled =>
        obtain ⟨files, hreceive, hfilled⟩ :=
          Client.receive_of_some (s := called s key) hopened hwritten
        rw [hreceive] at hdownload
        obtain ⟨files', hadjust, hfinal⟩ :=
          Client.adjust_eq (s := { called s key with files := files }) hfilled.opened key
            blob.length
        rw [Client.get_of_ok hdownload, hadjust, hdownload]
        exact .of_filled hfault hblob hwritten hfilled hfinal

-- However a file was opened and whatever it held, a download that succeeds leaves it with the size of
-- the blob. One that brings all of the blob leaves it with the blob, where writing starts at the
-- beginning of the file.
theorem get_sizes (settings : Settings) (now : Instant) (policy : SignPolicy) (key path : String)
    (mode : Mode) (s : Session Store) {handle : Handle} {opened : Files}
    (hopen : s.files.openFile path mode = .ok (handle, opened)) :
    handle.mode = mode ∧
      ∃ old, opened.read path = .ok old ∧ (mode = .create → old = []) ∧
        (mode ≠ .create → opened = s.files) ∧
        Got settings key path handle old { s with files := opened }
          (Client.download ⟨backend settings now, policy⟩ key handle { s with files := opened })
          (Client.get ⟨backend settings now, policy⟩ key handle { s with files := opened }) ∧
        (settings.shortDownloads = false → faultOf? settings ⟨.download, key⟩ = none →
          mode = .create ∨ mode = .existing → ∀ blob, s.store.catalog.content? key = some blob →
            (Client.get ⟨backend settings now, policy⟩ key handle { s with files := opened }).1 =
                .ok () ∧
              (Client.get ⟨backend settings now, policy⟩ key handle
                { s with files := opened }).2.files.read path = .ok blob) := by
  obtain ⟨hmode, old, hopened, hcreate, hother⟩ := openFile_opened hopen
  have hgot := got_opened settings key now policy { s with files := opened } hopened
  refine ⟨hmode, old, hopened.reads, fun h => (hcreate h).2, hother, hgot, ?_⟩
  intro hshort hfault hplaced blob hblob
  exact hgot.whole hshort hfault hblob (hmode ▸ hplaced)

section Sample

-- A file with more bytes than the blob, which comes without its last byte.
def longFile : Session Store :=
  ⟨⟨Catalog.empty.put "blob" [7, 8, 9], []⟩, Files.empty.store "file" [1, 2, 3, 4, 5], []⟩

def shortened : Settings := { pageSize := 3, shortDownloads := true }

theorem get_sizes_existing :
    longFile.files.openFile "file" .existing = .ok (⟨["file"], .existing⟩, longFile.files) ∧
      (Client.get ⟨backend shortened (.ofSeconds 0), .standard⟩ "blob" ⟨["file"], .existing⟩
        longFile).2.files.read "file" = .ok [7, 8, 3] ∧
      (Client.get ⟨backend shortened (.ofSeconds 0), .standard⟩ "blob" ⟨["file"], .existing⟩
        longFile).2.events = [Client.resizing "blob" 5 3] := by
  have hopen : longFile.files.openFile "file" .existing =
      .ok (⟨["file"], .existing⟩, longFile.files) := by rfl
  have hblob : longFile.store.catalog.content? "blob" = some [7, 8, 9] := by decide +kernel
  obtain ⟨-, old, hold, -, -, hgot, -⟩ :=
    get_sizes shortened (.ofSeconds 0) .standard "blob" "file" .existing longFile hopen
  obtain rfl : [1, 2, 3, 4, 5] = old := by
    have hread : longFile.files.read "file" = .ok [1, 2, 3, 4, 5] := by rfl
    exact Except.ok.inj (hread.symm.trans hold)
  obtain ⟨hok, hreads⟩ := hgot.placed [7, 8, 9] rfl hblob (.inr rfl)
  refine ⟨hopen, hreads, ?_⟩
  cases hdownload : Client.download ⟨backend shortened (.ofSeconds 0), .standard⟩ "blob"
      ⟨["file"], .existing⟩ longFile with
  | mk result between =>
    cases result with
    | error failure =>
      obtain ⟨houtcome, -⟩ := hgot.failed failure between hdownload
      rw [show Client.get _ _ _ longFile = _ from houtcome] at hok
      exact nomatch hok
    | ok reported =>
      obtain ⟨blob, filled, hblob', rfl, hwritten, -, hevents⟩ :=
        hgot.warned reported between hdownload
      obtain rfl := Option.some.inj (hblob.symm.trans hblob')
      obtain rfl : [7, 8, 3, 4, 5] = filled := Option.some.inj hwritten
      exact hevents

end Sample

end Memory

end BlobStorage
