import BlobStorage.Files.Basic
import BlobStorage.Proofs.Ordered
import Mathlib.Data.List.TakeDrop

-- What is at a place after a file was written there, and what a path leads to then.
namespace BlobStorage

theorem Bytes.resize_eq_takeD (size : Nat) (bytes : Bytes) : resize size bytes = bytes.takeD size 0 := by
  induction size generalizing bytes with
  | zero =>
    rw [resize, Nat.zero_sub, List.take_zero, List.takeD_zero, List.replicate_zero, List.append_nil]
  | succ size ih =>
    cases bytes with
    | nil => rw [resize, List.take_nil, List.takeD_nil, List.nil_append, List.length_nil, Nat.sub_zero]
    | cons first rest =>
      rw [resize, List.length_cons, List.take_succ_cons, Nat.add_sub_add_right, List.takeD_succ]
      exact congrArg (first :: ·) (ih rest)

namespace Files

section Set

variable (files : Files) {place : List String}

theorem set_set (place : List String) (first second : Node) :
    (files.set place first).set place second = files.set place second := by
  have hgone : (files.nodes.filter (·.1 ≠ place)).filter (·.1 ≠ place) =
      files.nodes.filter (·.1 ≠ place) := by
    rw [List.filter_filter]
    simp only [Bool.and_self]
  have hself : [(place, first)].filter (·.1 ≠ place) = [] := by simp
  simp only [set, List.filter_append, hgone, hself, List.append_nil]

theorem node?_set (hplace : place ≠ []) (node : Node) (other : List String) :
    (files.set place node).node? other =
      if other = place then some node else files.node? other := by
  by_cases hother : other = []
  · rw [hother, node?, if_pos rfl, if_neg (Ne.symm hplace), node?, if_pos rfl]
  · rw [node?, if_neg hother, set, List.lookup_append, lookup_filter_ne, lookup_cons_eq_ite,
      List.lookup_nil, node?, if_neg hother]
    by_cases heq : other = place
    · rw [if_pos heq, if_pos heq, if_pos heq]
      rfl
    · rw [if_neg heq, if_neg heq, if_neg heq, Option.or_none]

theorem contentAt_set (hplace : place ≠ []) (content : Bytes) :
    (files.set place (.file content)).contentAt place = content := by
  rw [contentAt, node?_set files hplace, if_pos rfl]

end Set

-- The place of a file, or of a name that is still free.
def Target.place? : Target → Option (List String)
  | .file place _ => some place
  | .folder _ => none
  | .free place => some place

-- A place that a file may be written to: it has a name of its own, and there is no folder.
structure Writable (files : Files) (place : List String) : Prop where
  named : ∃ above name, place = above ++ [name] ∧ name ≠ ".."
  notFolder : files.node? place ≠ some .folder

namespace Writable

variable {files : Files} {place : List String} (h : files.Writable place)
include h

theorem ne_nil : place ≠ [] := by
  obtain ⟨above, name, rfl, -⟩ := h.named
  exact List.concat_ne_nil name above

-- A file at such a place is in nobody's way up.
theorem above?_set (node : Node) (from' : List String) :
    (files.set place node).above? from' = files.above? from' := by
  have hup : from' ++ [".."] ≠ place := by
    obtain ⟨above, name, rfl, hname⟩ := h.named
    intro heq
    have hlast := (List.append_inj_right' heq rfl)
    exact hname (List.cons.inj hlast).1.symm
  rw [above?, node?_set files h.ne_nil, if_neg hup, above?]

end Writable

theorem outside_place? {parts : List String} {target : Target}
    (h : outside parts = .ok target) : target.place? = none := by
  rw [outside] at h
  split at h
  · rw [← Except.ok.inj h]
    rfl
  · exact nomatch h

section Follow

variable (files : Files) (place rest : List String)

theorem follow_dot : files.follow place ("." :: rest) = files.follow place rest := by
  rw [follow.eq_def files place ("." :: rest)]
  exact if_pos rfl

theorem follow_up :
    files.follow place (".." :: rest) =
      match files.above? place with
      | some up => files.follow up rest
      | none => outside rest := by
  rw [follow.eq_def files place (".." :: rest)]
  exact (if_neg (by decide)).trans (if_pos rfl)

variable {name : String} (hdot : name ≠ ".") (hup : name ≠ "..")
include hdot hup

theorem follow_name :
    files.follow place (name :: rest) =
      match files.node? (place ++ [name]), rest with
      | some .folder, _ => files.follow (place ++ [name]) rest
      | some (.file content), [] => .ok (.file (place ++ [name]) content)
      | some (.file _), _ :: _ => .error .notDirectory
      | none, [] => .ok (.free (place ++ [name]))
      | none, _ :: _ => .error .missing := by
  rw [follow.eq_def files place (name :: rest)]
  exact (if_neg hdot).trans (if_neg hup)

end Follow

-- Where a path leads to a file or a free name, it leads to what is written there.
theorem follow_set {files : Files} {parts start place : List String} {target : Target}
    (h : files.follow start parts = .ok target) (hplace : target.place? = some place) :
    files.Writable place ∧ ∀ content,
      (files.set place (.file content)).follow start parts = .ok (.file place content) := by
  induction parts generalizing start with
  | nil =>
    rw [follow, Except.ok.injEq] at h
    rw [← h] at hplace
    cases hplace
  | cons name rest ih =>
    by_cases hdot : name = "."
    · subst hdot
      rw [follow_dot] at h
      obtain ⟨hwritable, hset⟩ := ih h
      refine ⟨hwritable, fun content => ?_⟩
      rw [follow_dot, hset]
    · by_cases hup : name = ".."
      · subst hup
        rw [follow_up] at h
        cases habove : files.above? start with
        | none =>
          rw [habove] at h
          rw [outside_place? h] at hplace
          cases hplace
        | some up =>
          rw [habove] at h
          obtain ⟨hwritable, hset⟩ := ih h
          refine ⟨hwritable, fun content => ?_⟩
          rw [follow_up, hwritable.above?_set, habove]
          exact hset content
      · have hwritten : files.Writable (start ++ [name]) → ∀ content,
            (files.set (start ++ [name]) (.file content)).follow start [name] =
              .ok (.file (start ++ [name]) content) := by
          intro hwritable content
          rw [follow_name _ start [] hdot hup, node?_set files hwritable.ne_nil, if_pos rfl]
        rw [follow_name files start rest hdot hup] at h
        split at h
        · rename_i hnode
          obtain ⟨hwritable, hset⟩ := ih h
          refine ⟨hwritable, fun content => ?_⟩
          have hne : start ++ [name] ≠ place := fun heq => hwritable.notFolder (heq ▸ hnode)
          rw [follow_name _ start _ hdot hup, node?_set files hwritable.ne_nil, if_neg hne, hnode]
          exact hset content
        · rename_i old hnode
          rw [← Except.ok.inj h, Target.place?, Option.some.injEq] at hplace
          subst hplace
          have hwritable : files.Writable (start ++ [name]) :=
            ⟨⟨start, name, rfl, hup⟩, by simp [hnode]⟩
          exact ⟨hwritable, hwritten hwritable⟩
        · cases h
        · rename_i hnode
          rw [← Except.ok.inj h, Target.place?, Option.some.injEq] at hplace
          subst hplace
          have hwritable : files.Writable (start ++ [name]) :=
            ⟨⟨start, name, rfl, hup⟩, by simp [hnode]⟩
          exact ⟨hwritable, hwritten hwritable⟩
        · cases h

theorem find_set {files : Files} {path : String} {place : List String} {target : Target}
    (h : files.find path = .ok target) (hplace : target.place? = some place) :
    files.Writable place ∧ ∀ content,
      (files.set place (.file content)).find path = .ok (.file place content) := by
  rw [find] at h
  split at h
  · exact nomatch h
  · rename_i hnul
    split at h
    · exact nomatch h
    · rename_i hpath
      split at h
      · rw [outside_place? h] at hplace
        exact nomatch hplace
      · rename_i hstart
        obtain ⟨hwritable, hset⟩ := follow_set h hplace
        refine ⟨hwritable, fun content => ?_⟩
        have hknown : ¬((files.set place (.file content)).node? (start path)).isNone := by
          rw [node?_set files hwritable.ne_nil]
          split
          · exact nofun
          · exact hstart
        rw [find, if_neg hnul, if_neg hpath, if_neg hknown, hset]

theorem follow_file {files : Files} {parts start place : List String} {content : Bytes}
    (h : files.follow start parts = .ok (.file place content)) :
    files.node? place = some (.file content) := by
  induction parts generalizing start with
  | nil =>
    rw [follow] at h
    cases h
  | cons name rest ih =>
    by_cases hdot : name = "."
    · subst hdot
      rw [follow_dot] at h
      exact ih h
    · by_cases hup : name = ".."
      · subst hup
        rw [follow_up] at h
        split at h
        · exact ih h
        · cases outside_place? h
      · rw [follow_name files start rest hdot hup] at h
        split at h
        · exact ih h
        · rename_i hnode
          obtain ⟨rfl, rfl⟩ := Target.file.inj (Except.ok.inj h)
          exact hnode
        · cases h
        · cases h
        · cases h

theorem find_file {files : Files} {path : String} {place : List String} {content : Bytes}
    (h : files.find path = .ok (.file place content)) : files.node? place = some (.file content) := by
  rw [find] at h
  split at h
  · exact nomatch h
  · split at h
    · exact nomatch h
    · split at h
      · exact nomatch outside_place? h
      · exact follow_file h

-- A handle on the file that a path leads to, and what that file holds.
structure Opened (files : Files) (path : String) (handle : Handle) (content : Bytes) : Prop where
  named : handle.place ≠ []
  holds : files.contentAt handle.place = content
  reads : files.read path = .ok content
  sets : ∀ other, (files.set handle.place (.file other)).read path = .ok other

-- What is left where something else was put into an open file, and nowhere else.
structure Wrote (files files' : Files) (path : String) (handle : Handle) (content : Bytes) : Prop where
  opened : files'.Opened path handle content
  elsewhere : ∀ place, place ≠ handle.place → files'.node? place = files.node? place

section Opened

variable {files files' files'' : Files} {path : String} {handle : Handle} {content other : Bytes}

theorem Opened.same (h : files.Opened path handle content) : Wrote files files path handle content :=
  ⟨h, fun _ _ => rfl⟩

theorem Opened.set (h : files.Opened path handle content) (other : Bytes) :
    Wrote files (files.set handle.place (.file other)) path handle other where
  opened :=
    { named := h.named
      holds := contentAt_set files h.named other
      reads := h.sets other
      sets := fun last => by rw [set_set, h.sets] }
  elsewhere place hplace := by rw [node?_set files h.named, if_neg hplace]

theorem Wrote.trans (h : Wrote files files' path handle content)
    (h' : Wrote files' files'' path handle other) : Wrote files files'' path handle other :=
  ⟨h'.opened, fun place hplace => (h'.elsewhere place hplace).trans (h.elsewhere place hplace)⟩

-- What a file holds when bytes were written into it. None can be written where it was opened to be read.
def Mode.written? (mode : Mode) (old bytes : Bytes) : Option Bytes :=
  match mode with
  | .create | .existing => some (bytes ++ old.drop bytes.length)
  | .append => some (old ++ bytes)
  | .readOnly => if bytes = [] then some old else none

theorem Mode.written?_nil (mode : Mode) (old : Bytes) : mode.written? old [] = some old := by
  cases mode with
  | create | existing | readOnly => rfl
  | append => rw [written?, List.append_nil]

theorem write_of_none {old bytes : Bytes} (hwritten : handle.mode.written? old bytes = none) :
    files.write handle bytes = .error .badDescriptor := by
  rw [write]
  cases hmode : handle.mode with
  | create | existing | append =>
    rw [hmode, Mode.written?] at hwritten
    exact nomatch hwritten
  | readOnly =>
    rw [hmode, Mode.written?] at hwritten
    split at hwritten
    · exact nomatch hwritten
    · rename_i hbytes
      exact if_neg hbytes

variable (h : files.Opened path handle content)
include h

theorem Opened.write_of_some {bytes : Bytes}
    (hwritten : handle.mode.written? content bytes = some other) :
    ∃ files', files.write handle bytes = .ok files' ∧ Wrote files files' path handle other := by
  by_cases hbytes : bytes = []
  · subst hbytes
    rw [Mode.written?_nil, Option.some.injEq] at hwritten
    subst hwritten
    exact ⟨files, by rw [write, if_pos rfl], h.same⟩
  · refine ⟨files.set handle.place (.file other), ?_, h.set other⟩
    rw [write, if_neg hbytes, h.holds]
    cases hmode : handle.mode with
    | create | existing | append =>
      rw [hmode, Mode.written?, Option.some.injEq] at hwritten
      subst hwritten
      rfl
    | readOnly =>
      rw [hmode, Mode.written?, if_neg hbytes] at hwritten
      exact nomatch hwritten

theorem Opened.setLength_of_writable (hmode : handle.mode ≠ .readOnly) (size : Nat) :
    ∃ files', files.setLength handle size = .ok files' ∧
      Wrote files files' path handle (content.takeD size 0) := by
  refine ⟨files.set handle.place (.file (content.takeD size 0)), ?_, h.set _⟩
  rw [setLength, if_neg hmode, h.holds, Bytes.resize_eq_takeD]

end Opened

-- Only a file that is made, or emptied, to be written is changed when it is opened.
theorem openFile_opened {files opened : Files} {path : String} {mode : Mode} {handle : Handle}
    (h : files.openFile path mode = .ok (handle, opened)) :
    handle.mode = mode ∧ ∃ old, opened.Opened path handle old ∧
      (mode = .create → opened = files.set handle.place (.file []) ∧ old = []) ∧
      (mode ≠ .create → opened = files) := by
  rw [openFile] at h
  split at h
  · exact nomatch h
  · exact nomatch h
  · rename_i place hfind
    split at h
    · rename_i hmode
      obtain ⟨rfl, rfl⟩ := Prod.mk.inj (Except.ok.inj h)
      obtain ⟨hwritable, hset⟩ := find_set hfind rfl
      have hreads : ∀ content, (files.set place (.file content)).read path = .ok content :=
        fun content => by rw [read, hset]
      refine ⟨rfl, [], ⟨hwritable.ne_nil, contentAt_set files hwritable.ne_nil [], hreads [], ?_⟩,
        fun _ => ⟨rfl, rfl⟩, absurd hmode⟩
      intro content
      rw [set_set]
      exact hreads content
    · exact nomatch h
  · rename_i place old hfind
    obtain ⟨rfl, rfl⟩ := Prod.mk.inj (Except.ok.inj h)
    obtain ⟨hwritable, hset⟩ := find_set hfind rfl
    have hreads : ∀ content, (files.set place (.file content)).read path = .ok content :=
      fun content => by rw [read, hset]
    by_cases hmode : mode = .create
    · rw [if_pos hmode]
      refine ⟨rfl, [], ⟨hwritable.ne_nil, contentAt_set files hwritable.ne_nil [], hreads [], ?_⟩,
        fun _ => ⟨rfl, rfl⟩, absurd hmode⟩
      intro content
      rw [set_set]
      exact hreads content
    · rw [if_neg hmode]
      have hold : files.contentAt place = old := by rw [contentAt, find_file hfind]
      exact ⟨rfl, old, ⟨hwritable.ne_nil, hold, by rw [read, hfind], hreads⟩,
        fun hcreate => absurd hcreate hmode, fun _ => rfl⟩

-- A file that was made, or emptied, to be written: what is written there is what the path reads.
theorem openFile_create {files opened : Files} {path : String} {handle : Handle}
    (h : files.openFile path .create = .ok (handle, opened)) :
    handle.mode = .create ∧ handle.place ≠ [] ∧ opened = files.set handle.place (.file []) ∧
      ∀ content, (files.set handle.place (.file content)).read path = .ok content := by
  obtain ⟨hmode, old, hopened, hcreate, -⟩ := openFile_opened h
  obtain ⟨hset, -⟩ := hcreate rfl
  refine ⟨hmode, hopened.named, hset, fun content => ?_⟩
  have hreads := hopened.sets content
  rwa [hset, set_set] at hreads

end Files

end BlobStorage
