import BlobStorage.Proofs.Xml.Document
import BlobStorage.Service.Listing

-- A page of names as a service writes it, and what is read from it: the names and the marker, without
-- blanks at their ends.
namespace BlobStorage

namespace Xml

-- The nodes whose name is wanted.
section Selection

open Service (isNamed)

def childrenOf : Node → List Node
  | .element _ _ children => children
  | .text _ => []

theorem childrenNamed_eq (name : String) (nodes : List Node) :
    childrenNamed name nodes = (nodes.filter (isNamed name)).map childrenOf := by
  induction nodes with
  | nil => rfl
  | cons node nodes ih =>
    cases node with
    | text pieces => exact ih
    | element n attributes children =>
      simp only [childrenNamed, List.filterMap_cons] at ih ⊢
      by_cases hn : localName n = name
      · simp [isNamed, hn, childrenOf, ih]
      · simp [isNamed, hn, ih]

namespace Content

-- The names of the elements that are not inside of others.
def names : Content → List String
  | text _ => []
  | element _ name _ _ rest => localName name.text :: rest.names
  | alone _ name _ rest => localName name.text :: rest.names

-- Puts more behind a content, which takes over its last text.
def followedBy : Content → (String → Content) → Content
  | text s, next => next s
  | element before name attributes inner rest, next =>
    element before name attributes inner (rest.followedBy next)
  | alone before name attributes rest, next => alone before name attributes (rest.followedBy next)

def lastText : Content → String
  | text s => s
  | element _ _ _ _ rest => rest.lastText
  | alone _ _ _ rest => rest.lastText

theorem filter_textNodes (name : String) (cs : List Char) :
    (textNodes cs).filter (isNamed name) = [] := by
  unfold textNodes
  split <;> rfl

theorem filter_nodes {name : String} {content : Content} (h : name ∉ content.names) :
    content.nodes.filter (isNamed name) = [] := by
  induction content with
  | text s => exact filter_textNodes name _
  | element before child attributes inner rest _ ih =>
    rw [names, List.mem_cons, not_or] at h
    simp [nodes, filter_textNodes, isNamed, Ne.symm h.1, ih h.2]
  | alone before child attributes rest ih =>
    rw [names, List.mem_cons, not_or] at h
    simp [nodes, filter_textNodes, isNamed, Ne.symm h.1, ih h.2]

theorem filter_followedBy {name : String} {content : Content} (h : name ∉ content.names)
    (next : String → Content) :
    (content.followedBy next).nodes.filter (isNamed name) =
      (next content.lastText).nodes.filter (isNamed name) := by
  induction content with
  | text s => rfl
  | element before child attributes inner rest _ ih =>
    rw [names, List.mem_cons, not_or] at h
    simp [followedBy, nodes, filter_textNodes, isNamed, Ne.symm h.1, ih h.2, lastText]
  | alone before child attributes rest ih =>
    rw [names, List.mem_cons, not_or] at h
    simp [followedBy, nodes, filter_textNodes, isNamed, Ne.symm h.1, ih h.2, lastText]

-- An element that may be closed at once where there is nothing in it.
def closing (short : Bool) (before : String) (name : Name) (inner rest : Content) : Content :=
  if short = true ∧ inner.nodes = [] then alone before name [] rest
  else element before name [] inner rest

theorem closing_nodes (short : Bool) (before : String) (name : Name) (inner rest : Content) :
    ∃ attributes, attributesFit attributes = true ∧
      (closing short before name inner rest).nodes =
        textNodes (escape before) ++ .element name.text attributes inner.nodes :: rest.nodes := by
  unfold closing
  split
  · rename_i hshort
    refine ⟨[' '], by decide, ?_⟩
    rw [nodes, hshort.2]
    rfl
  · exact ⟨[], by decide, rfl⟩

end Content

end Selection

end Xml

namespace Service

open Xml

def blobsName : Name := ⟨"Blobs".toList, by decide, List.all_eq_true.mp (by decide)⟩

def blobName : Name := ⟨"Blob".toList, by decide, List.all_eq_true.mp (by decide)⟩

def nameName : Name := ⟨"Name".toList, by decide, List.all_eq_true.mp (by decide)⟩

def markerName : Name := ⟨"NextMarker".toList, by decide, List.all_eq_true.mp (by decide)⟩

def rootName : Name := ⟨"EnumerationResults".toList, by decide, List.all_eq_true.mp (by decide)⟩

-- What the element of a blob contains: its name, and whatever else is told of it.
structure Entry where
  name : String
  before : Content
  behind : Content
  single : "Name" ∉ before.names ∧ "Name" ∉ behind.names

def Entry.content (entry : Entry) : Content :=
  entry.before.followedBy fun s => .element s nameName [] (.text entry.name) entry.behind

def entriesContent : List Entry → Content
  | [] => .text ""
  | entry :: rest => .element "" blobName [] entry.content (entriesContent rest)

-- A page as a document. What stands in front of the blobs repeats what was asked for.
structure Listing where
  marked : Bool
  prolog : Prolog
  attributes : List Attribute
  front : Content
  entries : List Entry
  marker : Option String
  short : Bool
  distinct : (attributes.map (·.name.text)).Nodup
  unrelated : "Blobs" ∉ front.names ∧ "NextMarker" ∉ front.names

namespace Listing

def markerContent (l : Listing) : Content :=
  match l.marker with
  | some marker => .closing l.short "" markerName (.text marker) (.text "")
  | none => .text ""

def content (l : Listing) : Content :=
  l.front.followedBy fun s =>
    .closing l.short s blobsName (entriesContent l.entries) l.markerContent

def text (l : Listing) : String :=
  (if l.marked then "\uFEFF" else "") ++
    String.ofList (documentText l.prolog rootName l.attributes l.content)

def names (l : Listing) : List String := l.entries.map (·.name)

end Listing

section Reading

theorem requiredString?_entry (entry : Entry) :
    requiredString? "Name" entry.content.nodes = some (trimmed entry.name) := by
  have hnamed : entry.content.nodes.filter (isNamed "Name") =
      [.element nameName.text [] (textNodes (escape entry.name))] := by
    rw [Entry.content, Content.filter_followedBy entry.single.1]
    simp only [Content.nodes, List.filter_append, Content.filter_textNodes, List.nil_append,
      List.filter_cons, Content.filter_nodes entry.single.2]
    rfl
  have hchildren : childrenNamed "Name" entry.content.nodes = [textNodes (escape entry.name)] := by
    rw [childrenNamed_eq, hnamed]
    rfl
  rw [requiredString?, optionalString?, hchildren]
  simp only [stringValue?_escape, Option.map_some]
  rfl

theorem nodes_entriesContent (entries : List Entry) :
    (entriesContent entries).nodes =
      entries.map fun entry => .element blobName.text [] entry.content.nodes := by
  induction entries with
  | nil => rfl
  | cons entry entries ih =>
    rw [entriesContent, Content.nodes, ih]
    rfl

theorem isBlob_of_mem {entries : List Entry} {node : Node}
    (h : node ∈ (entriesContent entries).nodes) :
    ∃ children, node = .element blobName.text [] children := by
  rw [nodes_entriesContent] at h
  obtain ⟨entry, -, rfl⟩ := List.mem_map.mp h
  exact ⟨_, rfl⟩

theorem blobsTogether_entries (entries : List Entry) :
    blobsTogether (entriesContent entries).nodes = true := by
  simp only [blobsTogether, List.all_eq_true]
  intro node hnode
  have hmem := (List.dropWhile_suffix _).subset (List.mem_filter.mp hnode).1
  obtain ⟨children, rfl⟩ := isBlob_of_mem hmem
  rfl

theorem filter_entries (entries : List Entry) :
    (entriesContent entries).nodes.filter (isNamed "Blob") = (entriesContent entries).nodes := by
  rw [List.filter_eq_self]
  intro node hnode
  obtain ⟨children, rfl⟩ := isBlob_of_mem hnode
  rfl

theorem mapM_blobName? (entries : List Entry) :
    (entriesContent entries).nodes.mapM blobName? = some (entries.map (trimmed ·.name)) := by
  rw [nodes_entriesContent]
  induction entries with
  | nil => rfl
  | cons entry entries ih =>
    have hfit : attributesFit [] = true := by decide
    have hblob : blobName? (.element blobName.text [] entry.content.nodes) =
        some (trimmed entry.name) := by
      simp only [blobName?, hfit, entry.content.textsFit_nodes, and_self, if_true,
        requiredString?_entry]
    simp only [List.map_cons, List.mapM_cons, hblob, ih]
    rfl

theorem blobNames?_entries {name attributes : List Char} (h : attributesFit attributes = true)
    (entries : List Entry) :
    blobNames? (.element name attributes (entriesContent entries).nodes) =
      some (entries.map (trimmed ·.name)) := by
  simp only [blobNames?, h, (entriesContent entries).textsFit_nodes, blobsTogether_entries,
    and_self, if_true, filter_entries, mapM_blobName?]

variable (l : Listing)

theorem nodes_markerContent : ∃ attributes, l.markerContent.nodes =
    (l.marker.map fun marker =>
      Node.element markerName.text attributes (textNodes (escape marker))).toList := by
  unfold Listing.markerContent
  cases l.marker with
  | none => exact ⟨[], rfl⟩
  | some marker =>
    obtain ⟨attributes, -, hnodes⟩ := Content.closing_nodes l.short "" markerName (.text marker)
      (.text "")
    exact ⟨attributes, hnodes⟩

-- The elements with the names and with the marker.
theorem nodes_content : ∃ attributes, attributesFit attributes = true ∧
    ∀ name, name ∉ l.front.names → l.content.nodes.filter (isNamed name) =
      (Node.element blobsName.text attributes (entriesContent l.entries).nodes ::
        l.markerContent.nodes).filter (isNamed name) := by
  obtain ⟨attributes, hfit, hnodes⟩ := Content.closing_nodes l.short l.front.lastText blobsName
    (entriesContent l.entries) l.markerContent
  refine ⟨attributes, hfit, fun name hname => ?_⟩
  rw [Listing.content, Content.filter_followedBy hname, hnodes, List.filter_append,
    Content.filter_textNodes, List.nil_append]

theorem namesOf?_content : namesOf? l.content.nodes = some (l.names.map trimmed) := by
  obtain ⟨attributes, hfit, hnodes⟩ := nodes_content l
  obtain ⟨other, hmarker⟩ := nodes_markerContent l
  have hblobs : l.content.nodes.filter (isNamed "Blobs") =
      [.element blobsName.text attributes (entriesContent l.entries).nodes] := by
    rw [hnodes "Blobs" l.unrelated.1, hmarker]
    cases l.marker <;> rfl
  rw [namesOf?, hblobs]
  simp only [blobNames?_entries hfit, Listing.names, List.map_map]
  rfl

theorem optionalString?_content :
    optionalString? "NextMarker" l.content.nodes = some (l.marker.map trimmed) := by
  obtain ⟨attributes, -, hnodes⟩ := nodes_content l
  obtain ⟨other, hmarker⟩ := nodes_markerContent l
  have hchildren : childrenNamed "NextMarker" l.content.nodes =
      (l.marker.map fun marker => textNodes (escape marker)).toList := by
    rw [childrenNamed_eq, hnodes "NextMarker" l.unrelated.2, hmarker]
    cases l.marker <;> rfl
  rw [optionalString?, hchildren]
  cases l.marker with
  | none => rfl
  | some marker =>
    simp only [Option.map_some, Option.toList_some, stringValue?_escape]

theorem documentText_head (prolog : Prolog) (name : Name) (attributes : List Attribute)
    (content : Content) :
    ∃ c cs, documentText prolog name attributes content = c :: cs ∧ c ≠ '\uFEFF' := by
  rw [documentText, Prolog.written]
  cases prolog.declaration with
  | some text => exact ⟨'<', _, rfl, by decide⟩
  | none =>
    cases hgap : prolog.gap with
    | nil => exact ⟨'<', _, rfl, by decide⟩
    | cons c gap =>
      refine ⟨c, _, rfl, ?_⟩
      rintro rfl
      exact absurd (prolog.blank '\uFEFF' (hgap ▸ List.mem_cons_self)) (by decide)

theorem rootOf?_text : rootOf? (withoutMarks l.text) =
    some (.element rootName.text (attributesText l.attributes) l.content.nodes) := by
  obtain ⟨c, cs, hcons, hc⟩ := documentText_head l.prolog rootName l.attributes l.content
  have hmarks : withoutMarks l.text =
      String.ofList (documentText l.prolog rootName l.attributes l.content) := by
    have hstop : ∀ d ∈ (c :: cs).head?, (d == '\uFEFF') = false := by simpa using hc
    rw [withoutMarks, Listing.text, String.toList_append, String.toList_ofList]
    congr 1
    cases l.marked with
    | true =>
      rw [hcons]
      have hmark : ∀ d ∈ ['\uFEFF'], (d == '\uFEFF') = true := by simp
      exact Text.dropWhile_boundary hmark hstop
    | false =>
      rw [hcons]
      exact Text.dropWhile_eq_self_iff.mpr hstop
  rw [hmarks, ← ofDocument?_documentText l.prolog, rootOf?, String.toList_ofList, hcons]
  split
  · rename_i hmark
    exact absurd (List.cons.inj hmark).1 hc
  · rfl

theorem parseListing_text : parseListing l.text =
    .ok ⟨l.names.map trimmed, (l.marker.map trimmed).filter (· ≠ "")⟩ := by
  have hfit := attributesFit_attributesText l.distinct
  simp only [parseListing, listing?, rootOf?_text, hfit, l.content.textsFit_nodes, and_self,
    if_true, namesOf?_content, optionalString?_content]
  rfl

theorem map_trimmed_eq_self {names : List String} :
    names.map trimmed = names ↔ ∀ name ∈ names, Snug name := by
  induction names with
  | nil => simp
  | cons name names ih => simp [ih, trimmed_eq_iff]

theorem filter_trimmed_eq {marker : Option String} :
    (marker.map trimmed).filter (· ≠ "") = marker.filter (· ≠ "") ↔ ∀ m ∈ marker, Snug m := by
  cases marker with
  | none => simp
  | some m =>
    simp only [Option.map_some, Option.mem_def, Option.some.injEq, forall_eq', ← trimmed_eq_iff]
    constructor
    · intro h
      by_cases hm : m = ""
      · rw [hm]
        rfl
      · by_cases htrimmed : trimmed m = ""
        · simp [Option.filter, htrimmed, hm] at h
        · simpa [Option.filter, htrimmed, hm] using h
    · intro h
      rw [h]

-- A page is read as it was written, except that blanks at the ends of the names and of the marker are
-- lost: only pages without such blanks are read back exactly.
theorem parseListing_exact_iff :
    parseListing l.text = .ok ⟨l.names.map trimmed, (l.marker.map trimmed).filter (· ≠ "")⟩ ∧
    (parseListing l.text = .ok ⟨l.names, l.marker.filter (· ≠ "")⟩ ↔
      (∀ name ∈ l.names, Snug name) ∧ ∀ marker ∈ l.marker, Snug marker) := by
  refine ⟨parseListing_text l, ?_⟩
  rw [parseListing_text, Except.ok.injEq, Page.mk.injEq, map_trimmed_eq_self, filter_trimmed_eq]

-- A page with one name.
def onlyName (name : String) : Listing where
  marked := false
  prolog := ⟨none, [], nofun, nofun⟩
  attributes := []
  front := .text ""
  entries := [⟨name, .text "", .text "", by decide⟩]
  marker := none
  short := true
  distinct := List.nodup_nil
  unrelated := by decide

-- The reader loses a blank in front of a name, which then is the name of another blob.
theorem parseListing_loses_blank :
    (onlyName " a").text =
      "<EnumerationResults><Blobs><Blob><Name> a</Name></Blob></Blobs></EnumerationResults>" ∧
    (onlyName " a").names = [" a"] ∧
    parseListing (onlyName " a").text = .ok ⟨["a"], none⟩ ∧
    parseListing (onlyName " a").text ≠ .ok ⟨[" a"], none⟩ := by
  have hread : parseListing (onlyName " a").text = .ok ⟨["a"], none⟩ := parseListing_text _
  refine ⟨by decide +kernel, rfl, hread, ?_⟩
  rw [hread]
  intro h
  exact absurd (congrArg Page.names (Except.ok.inj h)) (by decide)

end Reading

end Service

end BlobStorage
