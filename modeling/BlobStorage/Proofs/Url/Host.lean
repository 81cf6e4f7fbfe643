import BlobStorage.Proofs.Url.Address
import BlobStorage.Proofs.Url.Domain
import BlobStorage.Proofs.Url.Percent
import BlobStorage.Url.Parser

-- The text of a host that was read can be read again.
namespace BlobStorage.Url

namespace Parser

open Domain (Settled)

-- Up to a colon outside brackets.
theorem splitHost_append {inside : Bool} {cs : List Char}
    (h : ∀ c ∈ cs, c ≠ '[' ∧ c ≠ ']' ∧ (inside = false → c ≠ ':')) (rest : List Char) :
    splitHost inside (cs ++ rest) = (cs ++ (splitHost inside rest).1, (splitHost inside rest).2) := by
  induction cs with
  | nil => rfl
  | cons c cs ih =>
    obtain ⟨hopen, hclose, hcolon⟩ := h c List.mem_cons_self
    rw [List.cons_append, splitHost, if_neg fun hc => hcolon hc.2 hc.1, if_neg hopen, if_neg hclose,
      ih fun d hd => h d (List.mem_cons_of_mem _ hd)]
    rfl

theorem splitHost_port {port : List Char} (h : port = [] ∨ port.head? = some ':') :
    splitHost false port = ([], port) := by
  cases port with
  | nil => rfl
  | cons c port =>
    have hc : c = ':' := by simpa using h
    rw [splitHost, if_pos ⟨hc, rfl⟩]

-- A host whose text is read as a host again wherever a port or nothing follows it.
structure Readable (host : Host) : Prop where
  reads : ∃ again, specialHost host.text.toList = .ok again
  splits : ∀ port, (port = [] ∨ port.head? = some ':') →
    splitHost false (host.text.toList ++ port) = (host.text.toList, port)
  plain : ∀ c ∈ host.text.toList, 0x20 < c.toNat ∧ c ≠ '@' ∧ endsAuthority true c = false

theorem specialHost_settled {cs : List Char} (h : Settled cs) (hne : cs ≠ [])
    (hnumber : Address.endsInNumber cs = true → (Address.ipv4? cs).isSome) :
    ∃ host, specialHost cs = .ok host := by
  have hbracket : cs.head? ≠ some '[' := by
    intro hhead
    have hforbidden := (h '[' (List.mem_of_head? hhead)).2
    exact absurd hforbidden (by decide)
  have hpercent : (37 : UInt8) ∉ Text.utf8 (String.ofList cs) := by
    rw [Text.utf8_ofList]
    apply Text.byte_not_mem (d := '%') (by decide)
    intro c hc
    refine ⟨Text.isSmall_ascii (h c hc).1, ?_⟩
    rintro rfl
    exact absurd (h '%' hc).2 (by decide)
  unfold specialHost
  rw [if_neg hne, if_neg hbracket, Percent.decode_of_not_mem hpercent, Text.ofUtf8?_utf8]
  simp only [Domain.ascii?_settled h]
  obtain ⟨c, rest, rfl⟩ := List.exists_cons_of_ne_nil hne
  by_cases hend : Address.endsInNumber (c :: rest) = true
  · obtain ⟨address, haddress⟩ := Option.isSome_iff_exists.mp (hnumber hend)
    exact ⟨.ipv4 address, by simp only [hend, if_true, haddress]⟩
  · exact ⟨.name (String.ofList (c :: rest)), by simp only [hend, Bool.false_eq_true, if_false]⟩

theorem settled_plain {cs : List Char} (h : Settled cs) {c : Char} (hc : c ∈ cs) :
    (0x20 < c.toNat ∧ c ≠ '@' ∧ endsAuthority true c = false) ∧ c ≠ '[' ∧ c ≠ ']' ∧ c ≠ ':' := by
  have hall : ∀ c : Char, c.toNat < 128 → Domain.isForbidden c = false →
      (0x20 < c.toNat ∧ c ≠ '@' ∧ endsAuthority true c = false) ∧ c ≠ '[' ∧ c ≠ ']' ∧ c ≠ ':' :=
    Text.forall_ascii (by decide)
  exact hall c (Text.isSmall_ascii (h c hc).1) (h c hc).2

theorem readable_of_settled {host : Host} (h : Settled host.text.toList)
    (hreads : ∃ again, specialHost host.text.toList = .ok again) : Readable host where
  reads := hreads
  splits := by
    intro port hport
    rw [splitHost_append (fun c hc => ?_), splitHost_port hport, List.append_nil]
    obtain ⟨-, hopen, hclose, hcolon⟩ := settled_plain h hc
    exact ⟨hopen, hclose, fun _ => hcolon⟩
  plain := fun c hc => (settled_plain h hc).1

theorem readable_ipv4 (address : Nat) : Readable (.ipv4 address) := by
  have hsettled : Settled (Address.ipv4Text address).toList := by
    intro c hc
    have hdigit : ∀ c : Char, c.toNat < 128 → Text.isDigit c = true →
        Text.isSmall c = true ∧ Domain.isForbidden c = false := Text.forall_ascii (by decide)
    rcases Address.mem_ipv4Text hc with rfl | hc
    · decide
    · refine hdigit c ?_ hc
      simp only [Text.isDigit, Bool.and_eq_true, decide_eq_true_eq] at hc
      omega
  have hquad := Address.ipv4?_quad (a := (address >>> 24) % 256) (b := (address >>> 16) % 256)
    (c := (address >>> 8) % 256) (d := (address >>> 0) % 256) (Nat.mod_lt _ (by decide))
    (Nat.mod_lt _ (by decide)) (Nat.mod_lt _ (by decide)) (Nat.mod_lt _ (by decide))
  rw [← Address.toList_ipv4Text] at hquad
  refine readable_of_settled hsettled (specialHost_settled hsettled ?_ fun _ => hquad)
  intro hnil
  have hnil : (Address.ipv4Text address).toList = [] := hnil
  rw [hnil] at hquad
  exact absurd hquad (by decide)

theorem readable_ipv6 {pieces : List Nat} (hlength : pieces.length = 8)
    (h : ∀ n ∈ pieces, n < 65536) : Readable (.ipv6 pieces) := by
  have htext : (Host.ipv6 pieces).text.toList = '[' :: ((Address.ipv6Text pieces).toList ++ [']']) := by
    simp only [Host.text, String.toList_append, List.append_assoc]
    rfl
  have hinner : ∀ c ∈ (Address.ipv6Text pieces).toList,
      (0x20 < c.toNat ∧ c ≠ '@' ∧ endsAuthority true c = false) ∧ c ≠ '[' ∧ c ≠ ']' := by
    intro c hc
    have hdigit : ∀ d < 16, (0x20 < (Nat.digitChar d).toNat ∧ Nat.digitChar d ≠ '@' ∧
        endsAuthority true (Nat.digitChar d) = false) ∧ Nat.digitChar d ≠ '[' ∧
          Nat.digitChar d ≠ ']' := by decide
    rcases Address.mem_ipv6Text hc with rfl | ⟨d, hd, rfl⟩
    · decide
    · exact hdigit d hd
  constructor
  · obtain ⟨again, hagain⟩ := Option.isSome_iff_exists.mp (Address.ipv6?_ipv6Text hlength h)
    refine ⟨.ipv6 again, ?_⟩
    rw [htext, specialHost, if_neg (List.cons_ne_nil _ _), if_pos List.head?_cons]
    simp only [bracketed, List.drop_succ_cons, List.drop_zero, List.dropLast_concat, hagain]
    rw [if_pos (by rw [← List.cons_append, List.getLast?_concat])]
  · intro port hport
    have hbrackets : splitHost true ((Address.ipv6Text pieces).toList ++ (']' :: port)) =
        ((Address.ipv6Text pieces).toList ++ [']'], port) := by
      rw [splitHost_append fun c hc =>
        ⟨(hinner c hc).2.1, (hinner c hc).2.2, fun h => Bool.noConfusion h⟩]
      simp [splitHost, splitHost_port hport]
    rw [htext, List.cons_append, List.append_assoc, List.singleton_append, splitHost,
      if_neg (by decide), if_pos rfl, hbrackets]
  · intro c hc
    rw [htext, List.mem_cons, List.mem_append, List.mem_singleton] at hc
    rcases hc with rfl | hc | rfl
    · decide
    · exact (hinner c hc).1
    · decide

theorem specialHost_readable {cs : List Char} {host : Host} (h : specialHost cs = .ok host) :
    Readable host := by
  unfold specialHost at h
  split at h
  · exact nomatch h
  split at h
  · unfold bracketed at h
    split at h
    · rename_i pieces hpieces
      split at h
      · cases h
        obtain ⟨hlength, hlt⟩ := Address.ipv6?_lt hpieces
        exact readable_ipv6 hlength hlt
      · exact nomatch h
    · exact nomatch h
  split at h
  · exact nomatch h
  split at h
  · exact nomatch h
  · exact nomatch h
  rename_i name hne hname
  split at h
  · split at h
    · cases h
      exact readable_ipv4 _
    · exact nomatch h
  · rename_i hend
    cases h
    have hsettled := Domain.settled_of_ascii? hname
    refine readable_of_settled ?_ ?_ <;> rw [Host.text, String.toList_ofList]
    · exact hsettled
    · exact specialHost_settled hsettled hne fun hnumber => absurd hnumber hend

end Parser

end BlobStorage.Url
