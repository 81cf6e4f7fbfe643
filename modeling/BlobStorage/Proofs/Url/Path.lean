import BlobStorage.Proofs.Text.Split
import BlobStorage.Proofs.Url.Percent
import BlobStorage.Url.Path

-- What appending segments does to a path, and what can be told from its text.
namespace BlobStorage.Url.Path

theorem text_append (front behind : List String) :
    (segments (front ++ behind)).text = (segments front).text ++ (segments behind).text := by
  simp only [text, List.map_append, String.join_append]

theorem text_singleton (segment : String) : (segments [segment]).text = "/" ++ segment := by
  simp only [text, List.map_cons, List.map_nil, String.join_cons, String.join_nil,
    String.append_empty]

-- A slash stands in front of every segment.
theorem text_eq_intercalate {parts : List String} (h : parts ≠ []) :
    (segments parts).text = "/" ++ "/".intercalate parts := by
  induction parts with
  | nil => exact absurd rfl h
  | cons part more ih =>
    cases more with
    | nil => rw [text_singleton, String.intercalate_singleton]
    | cons next rest =>
      have hcons : part :: next :: rest = [part] ++ (next :: rest) := rfl
      rw [hcons, text_append, text_singleton, ih (List.cons_ne_nil _ _), ← hcons,
        String.intercalate_cons_cons, String.append_assoc, String.append_assoc]

-- Segments without slashes are what their text splits into, behind an empty part.
theorem mem_split_text {parts : List String} (hparts : ∀ part ∈ parts, '/' ∉ part.toList)
    {part : String} (h : part ∈ Text.split '/' (segments parts).text) : part = "" ∨ part ∈ parts := by
  by_cases hne : parts = []
  · subst hne
    exact .inl (List.mem_singleton.mp h)
  · have hslash : (segments parts).text =
        String.ofList ([] ++ '/' :: ("/".intercalate parts).toList) := by
      rw [text_eq_intercalate hne, List.nil_append, ← List.singleton_append, String.ofList_append,
        String.ofList_toList]
    rw [hslash, Text.split_append_cons, String.ofList_toList, List.mem_append] at h
    rcases h with h | h
    · exact .inl (List.mem_singleton.mp h)
    · right
      have hsplit := Text.split_intercalate hne hparts
      exact hsplit ▸ h

-- No character of the text is dropped when a URL is read.
def Undropped (s : String) : Prop := ∀ c ∈ s.toList, isDropped c = false

instance (s : String) : Decidable (Undropped s) :=
  List.decidableBAll (isDropped · = false) s.toList

-- A segment as it stands in a path.
def escaped (special : Bool) (segment : String) : String :=
  String.ofList (Percent.encode (Percent.inSegment special) segment.toList)

theorem inSegment_sound (special : Bool) : Percent.Sound (Percent.inSegment special) where
  percent := by cases special <;> decide
  control c h := by
    simp only [Percent.inSegment, Percent.inPath, Percent.inFragment, h, Bool.true_or]

theorem decodeText?_escaped (special : Bool) (segment : String) :
    Percent.decodeText? (escaped special segment) = some segment := by
  rw [escaped, Percent.decodeText?_encode (inSegment_sound special), String.ofList_toList]

theorem slash_not_mem_escaped (special : Bool) (segment : String) :
    '/' ∉ (escaped special segment).toList := by
  intro h
  rw [escaped, String.toList_ofList] at h
  have hplain : ∀ c ∈ segment.toList, Percent.inSegment special c = false → c ≠ '/' := by
    rintro _ - h rfl
    exact absurd h (by cases special <;> decide)
  exact Percent.forall_mem_encode (p := (· ≠ '/')) (by decide) hplain h rfl

-- A segment without dropped characters that is no dot segment is appended as data. A path of one empty
-- segment makes room for it.
theorem push_data {special : Bool} {segment : String} (hsingle : segment ≠ ".")
    (hdouble : segment ≠ "..") (hplain : Undropped segment) (front : List String) :
    push special front segment =
      (if front = [""] then [] else front) ++ [escaped special segment] := by
  have hraw : segment.toList.filter (!isDropped ·) = segment.toList :=
    List.filter_eq_self.mpr fun c hc => by rw [hplain c hc]; rfl
  have hdots : ¬(segment = "." ∨ segment = "..") := fun h => h.elim hsingle hdouble
  have hsingle' : segment.toList ≠ ['.'] := fun h => hsingle (String.toList_inj.mp h)
  have hdouble' : segment.toList ≠ ['.', '.'] := fun h => hdouble (String.toList_inj.mp h)
  simp only [push, hraw, if_neg hdots, if_neg hsingle', if_neg hdouble', escaped]

theorem foldl_push_data {special : Bool} {front added : List String}
    (hfront : ∃ s ∈ front, s ≠ "") (hsingle : "." ∉ added) (hdouble : ".." ∉ added)
    (hplain : ∀ s ∈ added, Undropped s) :
    added.foldl (push special) front = front ++ added.map (escaped special) := by
  induction added generalizing front with
  | nil => rw [List.foldl_nil, List.map_nil, List.append_nil]
  | cons segment more ih =>
    obtain ⟨s, hs, hne⟩ := hfront
    have hempty : front ≠ [""] := by
      rintro rfl
      exact hne (List.mem_singleton.mp hs)
    rw [List.foldl_cons, push_data (fun h => hsingle (h ▸ List.mem_cons_self))
      (fun h => hdouble (h ▸ List.mem_cons_self)) (hplain _ List.mem_cons_self), if_neg hempty,
      ih ⟨s, List.mem_append_left _ hs, hne⟩ (fun h => hsingle (List.mem_cons_of_mem _ h))
        (fun h => hdouble (List.mem_cons_of_mem _ h))
        (fun s hs => hplain s (List.mem_cons_of_mem _ hs)),
      List.map_cons, List.append_assoc, List.singleton_append]

-- A segment that appending wrote: the escaped form of a text without dropped characters.
def Written (special : Bool) (segment : String) : Prop :=
  ∃ s, Undropped s ∧ segment = escaped special s

theorem written_empty (special : Bool) : Written special "" :=
  ⟨"", fun _ h => absurd h List.not_mem_nil, rfl⟩

theorem slash_not_mem_of_written {special : Bool} {segment : String} (h : Written special segment) :
    '/' ∉ segment.toList := by
  obtain ⟨s, _, rfl⟩ := h
  exact slash_not_mem_escaped special s

theorem undropped_intercalate {parts : List String} (h : ∀ part ∈ parts, Undropped part) :
    Undropped ("/".intercalate parts) := by
  intro c hc
  rw [String.toList_intercalate] at hc
  rcases Text.mem_intercalate hc with hc | ⟨cs, hcs, hc⟩
  · rw [List.mem_singleton.mp hc]
    rfl
  · obtain ⟨part, hpart, rfl⟩ := List.mem_map.mp hcs
    exact h part hpart c hc

theorem shorten_isPrefix (front : List String) : shorten front <+: front := by
  rw [shorten]
  split
  · split
    · exact List.prefix_rfl
    · exact List.dropLast_prefix front
  · exact List.nil_prefix

-- Whatever is appended, the path keeps a first part of what it had, and the rest of it was written.
theorem push_written (special : Bool) (front : List String) (segment : String) :
    ∃ kept added, kept <+: front ∧ (∀ s ∈ added, Written special s) ∧
      push special front segment = kept ++ added := by
  have hkept : (if front = [""] then [] else front) <+: front := by
    split
    · exact List.nil_prefix
    · exact List.prefix_rfl
  have hempty : ∀ s ∈ [""], Written special s := by
    intro s hs
    rw [List.mem_singleton.mp hs]
    exact written_empty special
  simp only [push]
  split
  · exact ⟨front, [], List.prefix_rfl, fun _ h => absurd h List.not_mem_nil,
      (List.append_nil front).symm⟩
  split
  · exact ⟨_, _, (shorten_isPrefix _).trans hkept, hempty, rfl⟩
  split
  · exact ⟨_, _, hkept, hempty, rfl⟩
  · refine ⟨_, _, hkept, fun s hs => ?_, rfl⟩
    refine ⟨String.ofList (segment.toList.filter (!isDropped ·)), fun c hc => ?_, ?_⟩
    · rw [String.toList_ofList] at hc
      simpa using (List.mem_filter.mp hc).2
    · rw [List.mem_singleton.mp hs, escaped, String.toList_ofList]

theorem foldl_push_written (special : Bool) (front added : List String) :
    ∃ kept written, kept <+: front ∧ (∀ s ∈ written, Written special s) ∧
      added.foldl (push special) front = kept ++ written := by
  induction added generalizing front with
  | nil =>
    exact ⟨front, [], List.prefix_rfl, fun _ h => absurd h List.not_mem_nil,
      (List.append_nil front).symm⟩
  | cons segment more ih =>
    obtain ⟨kept, written, hkept, hwritten, hpush⟩ := push_written special front segment
    obtain ⟨kept', written', ⟨cut, hcut⟩, hwritten', hfold⟩ := ih (push special front segment)
    rw [List.foldl_cons, hfold]
    rw [hpush] at hcut
    rcases List.append_eq_append_iff.mp hcut with ⟨lost, hlost, _⟩ | ⟨still, hstill, hrest⟩
    · exact ⟨kept', written', (List.IsPrefix.trans ⟨lost, hlost.symm⟩ hkept), hwritten', rfl⟩
    · refine ⟨kept, still ++ written', hkept, fun s hs => ?_, by rw [hstill, List.append_assoc]⟩
      rcases List.mem_append.mp hs with hs | hs
      · exact hwritten s (hrest ▸ List.mem_append_left _ hs)
      · exact hwritten' s hs

end BlobStorage.Url.Path
