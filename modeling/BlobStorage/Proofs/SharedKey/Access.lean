import BlobStorage.Proofs.Text.Split
import BlobStorage.Proofs.Time.Stamp
import BlobStorage.SharedKey.Access

-- What is signed of a grant tells the whole grant, although nothing marks where the name of its blob
-- ends: the lines in front of the name are read from the start of the text, those behind it from the
-- end.
namespace BlobStorage

namespace Permissions

-- The letters say what is allowed.
theorem contains_text (p : Permissions) :
    p.text.toList.contains 'r' = p.read ∧ p.text.toList.contains 'c' = p.create ∧
      p.text.toList.contains 'w' = p.write := by
  obtain ⟨read, create, write⟩ := p
  cases read <;> cases create <;> cases write <;> decide

theorem text_inj {p q : Permissions} (h : p.text = q.text) : p = q := by
  obtain ⟨hread, hcreate, hwrite⟩ := contains_text p
  obtain ⟨hread', hcreate', hwrite'⟩ := contains_text q
  rw [h] at hread hcreate hwrite
  obtain ⟨read, create, write⟩ := p
  obtain ⟨read', create', write'⟩ := q
  rw [Permissions.mk.injEq]
  exact ⟨hread.symm.trans hread', hcreate.symm.trans hcreate', hwrite.symm.trans hwrite'⟩

theorem newline_not_mem_text (p : Permissions) : '\n' ∉ p.text.toList := by
  obtain ⟨read, create, write⟩ := p
  cases read <;> cases create <;> cases write <;> decide

end Permissions

namespace SharedKey.Grant

def resource (account : String) (grant : Grant) : String :=
  "/blob/" ++ account ++ "/" ++ grant.container ++ "/" ++ grant.blob

-- The lines behind the protocol.
def ending : String := "\n2021-08-06\nb\n\n\n\n\n\n\n"

theorem stringToSign_eq (account : String) (grant : Grant) :
    grant.stringToSign account =
      grant.permissions ++ "\n" ++ (grant.start.stamp ++ "\n" ++ (grant.expiry.stamp ++ "\n" ++
        (grant.resource account ++ "\n\n\n" ++ grant.protocol ++ ending))) := by
  rw [← String.toList_inj]
  simp [stringToSign, lines, resource, ending, apiVersion, String.intercalate_cons_cons]

-- A line at the start of a text.
theorem line_inj {line other rest behind : String} (hline : '\n' ∉ line.toList)
    (hother : '\n' ∉ other.toList) (h : line ++ "\n" ++ rest = other ++ "\n" ++ behind) :
    line = other ∧ rest = behind := by
  have hlist := congrArg String.toList h
  simp only [String.toList_append, List.append_assoc] at hlist
  obtain ⟨hfront, hbehind⟩ := Text.boundary_inj hline hother hlist
  exact ⟨String.toList_inj.mp hfront, String.toList_inj.mp hbehind⟩

-- The two protocols do not end alike.
theorem append_protocol_inj {g g' : Grant} {front other : String}
    (h : front ++ g.protocol = other ++ g'.protocol) :
    front = other ∧ g.httpsOnly = g'.httpsOnly := by
  have hlast := congrArg (fun s => s.toList.getLast?) h
  have hsame : g.httpsOnly = g'.httpsOnly := by
    cases honly : g.httpsOnly <;> cases honly' : g'.httpsOnly
    · rfl
    · simp [protocol, honly, honly'] at hlast
    · simp [protocol, honly, honly'] at hlast
    · rfl
  have hprotocol : g.protocol = g'.protocol := by rw [protocol, protocol, hsame]
  rw [hprotocol] at h
  exact ⟨(String.append_left_inj _).mp h, hsame⟩

-- The first slash behind the account ends the container.
theorem resource_inj {account : String} {g g' : Grant} (hcontainer : '/' ∉ g.container.toList)
    (hcontainer' : '/' ∉ g'.container.toList) (h : g.resource account = g'.resource account) :
    g.container = g'.container ∧ g.blob = g'.blob := by
  simp only [resource, String.append_assoc, String.append_right_inj] at h
  have hlist := congrArg String.toList h
  simp only [String.toList_append] at hlist
  obtain ⟨hfront, hbehind⟩ := Text.boundary_inj hcontainer hcontainer' hlist
  exact ⟨String.toList_inj.mp hfront, String.toList_inj.mp hbehind⟩

-- The same text is signed for two grants of an account only if they are the same to the second. The
-- names of blobs may hold anything, also what looks like further lines.
theorem stringToSign_eq_iff (account : String) {container container' : String} (blob blob' : String)
    (p p' : Permissions) (start start' expiry expiry' : Instant) (httpsOnly httpsOnly' : Bool)
    (hcontainer : '/' ∉ container.toList) (hcontainer' : '/' ∉ container'.toList) :
    stringToSign account ⟨container, blob, p.text, start, expiry, httpsOnly⟩ =
        stringToSign account ⟨container', blob', p'.text, start', expiry', httpsOnly'⟩ ↔
      container = container' ∧ blob = blob' ∧ p = p' ∧ httpsOnly = httpsOnly' ∧
        start.seconds = start'.seconds ∧ expiry.seconds = expiry'.seconds := by
  constructor
  · intro h
    rw [stringToSign_eq, stringToSign_eq] at h
    obtain ⟨hpermissions, h⟩ := line_inj p.newline_not_mem_text p'.newline_not_mem_text h
    obtain ⟨hstart, h⟩ := line_inj start.newline_not_mem_stamp start'.newline_not_mem_stamp h
    obtain ⟨hexpiry, h⟩ := line_inj expiry.newline_not_mem_stamp expiry'.newline_not_mem_stamp h
    obtain ⟨h, hprotocol⟩ := append_protocol_inj ((String.append_left_inj ending).mp h)
    obtain ⟨hsame, hblob⟩ := resource_inj hcontainer hcontainer' ((String.append_left_inj _).mp h)
    exact ⟨hsame, hblob, Permissions.text_inj hpermissions, hprotocol,
      Instant.stamp_eq_iff.mp hstart, Instant.stamp_eq_iff.mp hexpiry⟩
  · rintro ⟨rfl, rfl, rfl, rfl, hstart, hexpiry⟩
    simp only [stringToSign, lines, Instant.stamp_congr hstart, Instant.stamp_congr hexpiry]
    rfl

-- The name of one blob is that of the other with all that is signed behind it.
theorem stringToSign_of_imitation :
    ('/' ∉ "releases".toList ∧ '/' ∉ "releases".toList) ∧
    stringToSign "account"
        ⟨"releases", "a", Permissions.readOnly.text, .ofSeconds 0, .ofSeconds 3600, true⟩ ≠
      stringToSign "account"
        ⟨"releases", "a\n\n\nhttps" ++ ending, Permissions.readOnly.text, .ofSeconds 0,
          .ofSeconds 3600, true⟩ := by
  have hcontainer : '/' ∉ "releases".toList := by decide
  refine ⟨⟨hcontainer, hcontainer⟩, fun h => ?_⟩
  have hblob := ((stringToSign_eq_iff "account" _ _ _ _ _ _ _ _ _ _ hcontainer hcontainer).mp h).2.1
  exact absurd hblob (by decide)

end SharedKey.Grant

end BlobStorage
