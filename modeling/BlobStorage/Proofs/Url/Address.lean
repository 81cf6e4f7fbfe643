import BlobStorage.Proofs.Text.Split
import BlobStorage.Url.Address
import Mathlib.Algebra.Group.Nat.Defs
import Mathlib.Data.List.Basic

-- Addresses as they are written read back, in four decimal numbers or in groups of hexadecimal digits.
namespace BlobStorage.Url

namespace Address

-- Whatever can be read piece by piece can be read, and has as many pieces.
theorem mapM_isSome {α β : Type} {f : α → Option β} {xs : List α} (h : ∀ x ∈ xs, (f x).isSome) :
    ∃ ys, xs.mapM f = some ys ∧ ys.length = xs.length := by
  induction xs with
  | nil => exact ⟨[], rfl, rfl⟩
  | cons x xs ih =>
    obtain ⟨y, hy⟩ := Option.isSome_iff_exists.mp (h x List.mem_cons_self)
    obtain ⟨ys, hys, hlength⟩ := ih fun z hz => h z (List.mem_cons_of_mem _ hz)
    exact ⟨y :: ys, by simp [List.mapM_cons, hy, hys], by simp [hlength]⟩

theorem forall_mem_of_mapM {α β : Type} {f : α → Option β} {p : β → Prop} {xs : List α} {ys : List β}
    (h : xs.mapM f = some ys) (hp : ∀ x y, f x = some y → p y) :
    ys.length = xs.length ∧ ∀ y ∈ ys, p y := by
  induction xs generalizing ys with
  | nil =>
    cases h
    exact ⟨rfl, fun _ hy => absurd hy List.not_mem_nil⟩
  | cons x xs ih =>
    simp only [List.mapM_cons, Option.bind_eq_bind, Option.bind_eq_some_iff] at h
    obtain ⟨y, hy, more, hmore, hcons⟩ := h
    cases hcons
    obtain ⟨hlength, hall⟩ := ih hmore
    refine ⟨by simp [hlength], ?_⟩
    intro z hz
    rcases List.mem_cons.mp hz with rfl | hz
    · exact hp x z hy
    · exact hall z hz

section Ipv4

theorem ipv4Number?_toDigits {n : Nat} (h : n < 256) : ipv4Number? (Nat.toDigits 10 n) = some n := by
  have hall : ∀ n < 256, ipv4Number? (Nat.toDigits 10 n) = some n := by decide +kernel
  exact hall n h

theorem dot_not_mem_toDigits (n : Nat) : '.' ∉ Nat.toDigits 10 n := by
  intro h
  exact absurd (Text.isDigit_of_mem_toDigits h) (by decide)

def quad (a b c d : Nat) : List (List Char) := [a, b, c, d].map (Nat.toDigits 10)

theorem toList_ipv4Text (address : Nat) :
    (ipv4Text address).toList = List.intercalate ['.']
      (quad ((address >>> 24) % 256) ((address >>> 16) % 256) ((address >>> 8) % 256)
        ((address >>> 0) % 256)) := by
  simp only [ipv4Text, String.toList_intercalate, List.map_cons, List.map_nil, Nat.toList_repr, quad]
  rfl

theorem nameParts_quad (a b c d : Nat) :
    nameParts (List.intercalate ['.'] (quad a b c d)) = quad a b c d := by
  have hsplit : Text.splitOn (· == '.') (List.intercalate ['.'] (quad a b c d)) = quad a b c d := by
    rw [Text.splitOn_eq_splitOnP, ← List.splitOn_eq_splitOnP]
    apply List.splitOn_intercalate
    · intro part hpart
      obtain ⟨n, -, rfl⟩ := List.mem_map.mp hpart
      exact dot_not_mem_toDigits n
    · exact List.cons_ne_nil _ _
  have hlast : ¬(1 < (quad a b c d).length ∧ (quad a b c d).getLast? = some []) := by
    rintro ⟨-, h⟩
    exact Nat.toDigits_ne_nil (Option.some.inj h)
  simp only [nameParts, hsplit, if_neg hlast]

theorem ipv4?_quad {a b c d : Nat} (ha : a < 256) (hb : b < 256) (hc : c < 256) (hd : d < 256) :
    (ipv4? (List.intercalate ['.'] (quad a b c d))).isSome := by
  have hnumbers : (quad a b c d).mapM ipv4Number? = some [a, b, c, d] := by
    simp only [quad, List.map_cons, List.map_nil, List.mapM_cons, List.mapM_nil,
      ipv4Number?_toDigits ha, ipv4Number?_toDigits hb, ipv4Number?_toDigits hc,
      ipv4Number?_toDigits hd]
    rfl
  have hfits : ([a, b, c, d].length ≤ 4 ∧ d < 1 <<< (8 * (4 - [a, b, c].length)) ∧
      [a, b, c].all (· < 256) = true) := by
    simp [ha, hb, hc, hd]
  simp only [ipv4?, nameParts_quad, hnumbers, Option.bind_eq_bind, Option.bind_some,
    List.getLast?_cons_cons, List.getLast?_singleton, List.dropLast_cons_cons, List.dropLast_singleton]
  rw [if_pos hfits]
  rfl

end Ipv4

section Ipv6

theorem digit_of_mem_toDigits {n : Nat} {c : Char} (h : c ∈ Nat.toDigits 16 n) :
    ∃ d < 16, c = Nat.digitChar d := by
  induction n using Nat.strongRecOn with
  | ind n ih =>
    rw [Nat.toDigits_eq_if (by decide)] at h
    split at h
    · rename_i hn
      exact ⟨n, hn, List.mem_singleton.mp h⟩
    · rcases List.mem_append.mp h with h | h
      · exact ih (n / 16) (by omega) h
      · exact ⟨n % 16, Nat.mod_lt n (by decide), List.mem_singleton.mp h⟩

theorem plain_of_mem_toDigits {n : Nat} {c : Char} (h : c ∈ Nat.toDigits 16 n) :
    c ≠ ':' ∧ c ≠ '.' ∧ c ≠ '[' ∧ c ≠ ']' := by
  have hall : ∀ d < 16, Nat.digitChar d ≠ ':' ∧ Nat.digitChar d ≠ '.' ∧ Nat.digitChar d ≠ '[' ∧
      Nat.digitChar d ≠ ']' := by decide
  obtain ⟨d, hd, rfl⟩ := digit_of_mem_toDigits h
  exact hall d hd

theorem length_toDigits_le {n k : Nat} (h : n < 16 ^ (k + 1)) : (Nat.toDigits 16 n).length ≤ k + 1 := by
  induction k generalizing n with
  | zero =>
    rw [Nat.toDigits_eq_if (by decide), if_pos (by omega)]
    exact Nat.le_refl 1
  | succ k ih =>
    rw [Nat.toDigits_eq_if (by decide)]
    split
    · simp
    · have hrest := ih (n := n / 16) (by rw [Nat.pow_succ] at h; omega)
      simp only [List.length_append, List.length_singleton]
      omega

theorem isSome_digitsValue? {n : Nat} : (digitsValue? 16 (Nat.toDigits 16 n)).isSome := by
  have hall : ∀ d < 16, (digitValue? 16 (Nat.digitChar d)).isSome := by decide
  have hdigits : ∀ c ∈ Nat.toDigits 16 n, (digitValue? 16 c).isSome := by
    intro c hc
    obtain ⟨d, hd, rfl⟩ := digit_of_mem_toDigits hc
    exact hall d hd
  obtain ⟨values, hvalues, -⟩ := mapM_isSome hdigits
  rw [digitsValue?, hvalues]
  rfl

theorem isSome_ipv6Piece? {n : Nat} (h : n < 65536) : (ipv6Piece? (Nat.toDigits 16 n)).isSome := by
  have hlength := length_toDigits_le (k := 3) h
  rw [ipv6Piece?, if_pos ⟨Nat.toDigits_ne_nil, hlength⟩]
  exact isSome_digitsValue?

-- Pieces as they are written between colons.
def groups (pieces : List Nat) : List Char :=
  List.intercalate [':'] (pieces.map (Nat.toDigits 16))

theorem toList_piecesText (pieces : List Nat) : (piecesText pieces).toList = groups pieces := by
  rw [piecesText, String.toList_intercalate, List.map_map, groups]
  congr 1
  exact List.map_congr_left fun n _ => String.toList_ofList

theorem groups_cons_cons (n m : Nat) (pieces : List Nat) :
    groups (n :: m :: pieces) = Nat.toDigits 16 n ++ ':' :: groups (m :: pieces) := by
  simp only [groups, List.map_cons, List.intercalate_cons_cons, List.append_assoc,
    List.singleton_append]

theorem groups_eq_nil_iff {pieces : List Nat} : groups pieces = [] ↔ pieces = [] := by
  constructor
  · intro h
    match pieces with
    | [] => rfl
    | [n] =>
      rw [groups, List.map_singleton, List.intercalate_singleton] at h
      exact absurd h Nat.toDigits_ne_nil
    | n :: m :: pieces =>
      rw [groups_cons_cons] at h
      exact absurd h (List.append_ne_nil_of_right_ne_nil _ (List.cons_ne_nil _ _))
  · rintro rfl
    rfl

theorem ipv6Pieces?_groups (mayEmbed : Bool) {pieces : List Nat} (hne : pieces ≠ [])
    (h : ∀ n ∈ pieces, n < 65536) :
    ∃ found, ipv6Pieces? mayEmbed (Text.splitOn (· == ':') (groups pieces)) = some found ∧
      found.length = pieces.length := by
  have hparts : pieces.map (Nat.toDigits 16) ≠ [] := fun hnil => hne (List.map_eq_nil_iff.mp hnil)
  have hplain : ∀ part ∈ pieces.map (Nat.toDigits 16), ':' ∉ part ∧ '.' ∉ part := by
    intro part hpart
    obtain ⟨n, -, rfl⟩ := List.mem_map.mp hpart
    exact ⟨fun hc => (plain_of_mem_toDigits hc).1 rfl, fun hc => (plain_of_mem_toDigits hc).2.1 rfl⟩
  have hsplit : Text.splitOn (· == ':') (groups pieces) = pieces.map (Nat.toDigits 16) := by
    rw [Text.splitOn_eq_splitOnP, ← List.splitOn_eq_splitOnP, groups]
    exact List.splitOn_intercalate ':' (fun part hpart => (hplain part hpart).1) hparts
  have hreads : ∀ part ∈ pieces.map (Nat.toDigits 16), (ipv6Piece? part).isSome := by
    intro part hpart
    obtain ⟨n, hn, rfl⟩ := List.mem_map.mp hpart
    exact isSome_ipv6Piece? (h n hn)
  obtain ⟨found, hfound, hlength⟩ := mapM_isSome hreads
  refine ⟨found, ?_, by rw [hlength, List.length_map]⟩
  have hdot := (hplain _ (List.getLast_mem hparts)).2
  rw [hsplit, ipv6Pieces?, List.getLast?_eq_some_getLast hparts]
  simp only [List.contains_eq_mem, hdot, decide_false, Bool.false_eq_true, and_false, if_false, hfound]

-- What stands in front of a pair of colons, or at an end of the address.
theorem ipv6Side_groups (mayEmbed : Bool) {pieces : List Nat} (h : ∀ n ∈ pieces, n < 65536) :
    ∃ found, (if groups pieces = [] then some []
        else ipv6Pieces? mayEmbed (Text.splitOn (· == ':') (groups pieces))) = some found ∧
      found.length = pieces.length := by
  by_cases hne : pieces = []
  · subst hne
    exact ⟨[], rfl, rfl⟩
  · rw [if_neg fun hnil => hne (groups_eq_nil_iff.mp hnil)]
    exact ipv6Pieces?_groups mayEmbed hne h

theorem splitAtGap_cons {c : Char} {rest : List Char} (h : c = ':' → rest.head? ≠ some ':') :
    splitAtGap (c :: rest) = (splitAtGap rest).map fun (front, rear) => (c :: front, rear) := by
  apply splitAtGap.eq_2
  rintro more hc rfl
  exact h hc rfl

theorem splitAtGap_append {cs rest : List Char} (h : ':' ∉ cs) :
    splitAtGap (cs ++ rest) = (splitAtGap rest).map fun (front, rear) => (cs ++ front, rear) := by
  induction cs with
  | nil =>
    rw [List.nil_append]
    cases splitAtGap rest <;> rfl
  | cons c cs ih =>
    rw [List.cons_append, splitAtGap_cons fun hc => absurd (hc ▸ List.mem_cons_self) h,
      ih fun hmem => h (List.mem_cons_of_mem _ hmem)]
    cases splitAtGap rest <;> rfl

theorem head?_groups_cons (n : Nat) (pieces : List Nat) (rest : List Char) :
    (groups (n :: pieces) ++ rest).head? ≠ some ':' := by
  obtain ⟨c, cs, hcs⟩ := List.exists_cons_of_ne_nil (Nat.toDigits_ne_nil (b := 16) (n := n))
  have hc : c ≠ ':' := (plain_of_mem_toDigits (n := n) (hcs ▸ List.mem_cons_self)).1
  cases pieces with
  | nil =>
    rw [groups, List.map_singleton, List.intercalate_singleton, hcs]
    simpa using hc
  | cons m pieces =>
    rw [groups_cons_cons, hcs]
    simpa using hc

-- Single colons between pieces are no gap.
theorem splitAtGap_groups (pieces : List Nat) (rest : List Char) :
    splitAtGap (groups pieces ++ rest) =
      (splitAtGap rest).map fun (front, rear) => (groups pieces ++ front, rear) := by
  have hplain : ∀ n, ':' ∉ Nat.toDigits 16 n := fun n hc => (plain_of_mem_toDigits hc).1 rfl
  induction pieces with
  | nil =>
    show splitAtGap rest = _
    cases splitAtGap rest <;> rfl
  | cons n pieces ih =>
    cases pieces with
    | nil =>
      rw [groups, List.map_singleton, List.intercalate_singleton]
      exact splitAtGap_append (hplain n)
    | cons m pieces =>
      rw [groups_cons_cons, List.append_assoc, splitAtGap_append (hplain n), List.cons_append,
        splitAtGap_cons fun _ => head?_groups_cons m pieces rest, ih]
      cases splitAtGap rest <;> simp

theorem lt_of_gap? {pieces : List Nat} {start length : Nat}
    (h : gap? pieces = some (start, length)) : start < pieces.length ∧ 2 ≤ length := by
  have hfold : ∀ (runs : List (Nat × Nat)) (best : Nat × Nat),
      runs.foldl (fun best run => if best.2 < run.2 then run else best) best ∈ best :: runs := by
    intro runs
    induction runs with
    | nil => exact fun best => List.mem_cons_self
    | cons run runs ih =>
      intro best
      rw [List.foldl_cons]
      split
      · exact List.mem_cons_of_mem _ (ih run)
      · rcases List.mem_cons.mp (ih best) with hbest | hmem
        · rw [hbest]
          exact List.mem_cons_self
        · exact List.mem_cons_of_mem _ (List.mem_cons_of_mem _ hmem)
  simp only [gap?] at h
  split at h
  · rename_i hlong
    have hmem := hfold ((List.range pieces.length).map fun i => (i, zeroRun (pieces.drop i))) (0, 0)
    rw [Option.some.inj h] at hmem hlong
    rcases List.mem_cons.mp hmem with hzero | hmem
    · cases hzero
      exact absurd hlong (by decide)
    · obtain ⟨i, hi, hrun⟩ := List.mem_map.mp hmem
      cases hrun
      exact ⟨List.mem_range.mp hi, hlong⟩
  · exact nomatch h

theorem ipv6?_of_gap {cs front rear : List Char} {left right : List Nat}
    (hsplit : splitAtGap cs = some (front, rear))
    (hleft : (if front = [] then some []
      else ipv6Pieces? false (Text.splitOn (· == ':') front)) = some left)
    (hright : (if rear = [] then some []
      else ipv6Pieces? true (Text.splitOn (· == ':') rear)) = some right)
    (hroom : left.length + right.length ≤ 7) : (ipv6? cs).isSome := by
  by_cases hfront : front = []
  · by_cases hrear : rear = [] <;> simp_all [ipv6?]
  · by_cases hrear : rear = [] <;> simp_all [ipv6?]

-- Pieces of sixteen bits read back from their text.
theorem ipv6?_ipv6Text {pieces : List Nat} (hlength : pieces.length = 8)
    (h : ∀ n ∈ pieces, n < 65536) : (ipv6? (ipv6Text pieces).toList).isSome := by
  unfold ipv6Text
  cases hgap : gap? pieces with
  | none =>
    have hne : pieces ≠ [] := by
      rintro rfl
      exact nomatch hlength
    obtain ⟨found, hfound, hcount⟩ := ipv6Pieces?_groups true hne h
    have hsplit : splitAtGap (groups pieces) = none := by
      have hall := splitAtGap_groups pieces []
      rwa [List.append_nil] at hall
    simp only [toList_piecesText, ipv6?, hsplit, hfound, Option.bind_eq_bind, Option.bind_some]
    rw [if_pos (hcount.trans hlength)]
    rfl
  | some run =>
    obtain ⟨start, length⟩ := run
    obtain ⟨hstart, hlong⟩ := lt_of_gap? hgap
    have hfront : ∀ n ∈ pieces.take start, n < 65536 := fun n hn => h n (List.mem_of_mem_take hn)
    have hbehind : ∀ n ∈ pieces.drop (start + length), n < 65536 :=
      fun n hn => h n (List.mem_of_mem_drop hn)
    obtain ⟨left, hleft, hcountLeft⟩ := ipv6Side_groups false hfront
    obtain ⟨right, hright, hcountRight⟩ := ipv6Side_groups true hbehind
    have hsplit : splitAtGap (groups (pieces.take start) ++
        (':' :: ':' :: groups (pieces.drop (start + length)))) =
          some (groups (pieces.take start), groups (pieces.drop (start + length))) := by
      rw [splitAtGap_groups]
      simp [splitAtGap]
    have hroom : left.length + right.length ≤ 7 := by
      rw [hcountLeft, hcountRight, List.length_take, List.length_drop]
      omega
    have htext : (piecesText (pieces.take start) ++ "::" ++
        piecesText (pieces.drop (start + length))).toList =
          groups (pieces.take start) ++ (':' :: ':' :: groups (pieces.drop (start + length))) := by
      rw [String.toList_append, String.toList_append, toList_piecesText, toList_piecesText,
        List.append_assoc]
      rfl
    simp only [htext]
    exact ipv6?_of_gap hsplit hleft hright hroom

theorem digitValue?_lt {base : Nat} {c : Char} {d : Nat} (h : digitValue? base c = some d) :
    d < base := by
  simp only [digitValue?, Option.ite_none_right_eq_some] at h
  exact Option.some.inj h.2 ▸ h.1

theorem foldl_digits_lt {base : Nat} {digits : List Nat} (h : ∀ d ∈ digits, d < base) (start : Nat) :
    digits.foldl (fun n d => n * base + d) start < (start + 1) * base ^ digits.length := by
  induction digits generalizing start with
  | nil => simp
  | cons d digits ih =>
    have hd := h d List.mem_cons_self
    have hstep : start * base + d + 1 ≤ (start + 1) * base := by
      rw [Nat.succ_mul]
      omega
    calc
      digits.foldl (fun n d => n * base + d) (start * base + d)
          < (start * base + d + 1) * base ^ digits.length :=
        ih (fun e he => h e (List.mem_cons_of_mem _ he)) _
      _ ≤ (start + 1) * base * base ^ digits.length := Nat.mul_le_mul_right _ hstep
      _ = (start + 1) * base ^ (d :: digits).length := by
        rw [List.length_cons, Nat.pow_succ, Nat.mul_assoc, Nat.mul_comm base]

theorem ipv6Piece?_lt {cs : List Char} {n : Nat} (h : ipv6Piece? cs = some n) : n < 65536 := by
  unfold ipv6Piece? at h
  split at h
  · rename_i hfits
    obtain ⟨digits, hdigits, rfl⟩ := Option.map_eq_some_iff.mp h
    obtain ⟨hlength, hall⟩ := forall_mem_of_mapM hdigits fun _ _ => digitValue?_lt
    have hvalue := foldl_digits_lt hall 0
    have hpow : 16 ^ digits.length ≤ 16 ^ 4 := Nat.pow_le_pow_right (by decide) (by omega)
    omega
  · exact nomatch h

theorem embedded?_lt {cs : List Char} {pieces : List Nat} (h : embedded? cs = some pieces) :
    ∀ n ∈ pieces, n < 65536 := by
  have hbyte : ∀ cs n, embeddedByte? cs = some n → n < 256 := by
    intro cs n h
    unfold embeddedByte? at h
    split at h
    · rename_i hfits
      exact Option.some.inj h ▸ hfits.2.2.2
    · exact nomatch h
  unfold embedded? at h
  split at h
  · rename_i a b c d hparts
    have hall : ∀ n, some n ∈ (Text.splitOn (· == '.') cs).map embeddedByte? → n < 256 := by
      intro n hn
      obtain ⟨part, -, hpart⟩ := List.mem_map.mp hn
      exact hbyte part n hpart
    rw [hparts] at hall
    have ha := hall a (by simp)
    have hb := hall b (by simp)
    have hc := hall c (by simp)
    have hd := hall d (by simp)
    cases h
    intro n hn
    simp only [List.mem_cons, List.not_mem_nil, or_false] at hn
    omega
  · exact nomatch h

theorem ipv6Pieces?_lt {mayEmbed : Bool} {parts : List (List Char)} {pieces : List Nat}
    (h : ipv6Pieces? mayEmbed parts = some pieces) : ∀ n ∈ pieces, n < 65536 := by
  unfold ipv6Pieces? at h
  split at h
  · cases h
    exact fun n hn => absurd hn List.not_mem_nil
  · split at h
    · simp only [Option.bind_eq_bind, Option.bind_eq_some_iff] at h
      obtain ⟨front, hfront, rear, hrear, hboth⟩ := h
      cases hboth
      intro n hn
      rcases List.mem_append.mp hn with hn | hn
      · exact (forall_mem_of_mapM hfront fun _ _ => ipv6Piece?_lt).2 n hn
      · exact embedded?_lt hrear n hn
    · exact (forall_mem_of_mapM h fun _ _ => ipv6Piece?_lt).2

theorem ipv6Side_lt {mayEmbed : Bool} {cs : List Char} {pieces : List Nat}
    (h : (if cs = [] then some []
      else ipv6Pieces? mayEmbed (Text.splitOn (· == ':') cs)) = some pieces) :
    ∀ n ∈ pieces, n < 65536 := by
  split at h
  · cases h
    exact fun n hn => absurd hn List.not_mem_nil
  · exact ipv6Pieces?_lt h

theorem ipv6?_lt {cs : List Char} {pieces : List Nat} (h : ipv6? cs = some pieces) :
    pieces.length = 8 ∧ ∀ n ∈ pieces, n < 65536 := by
  unfold ipv6? at h
  split at h
  · rename_i front rear _
    have hsides : ∃ left right, (if front = [] then some []
          else ipv6Pieces? false (Text.splitOn (· == ':') front)) = some left ∧
        (if rear = [] then some []
          else ipv6Pieces? true (Text.splitOn (· == ':') rear)) = some right ∧
        (if left.length + right.length ≤ 7 then
          some (left ++ List.replicate (8 - left.length - right.length) 0 ++ right)
        else none) = some pieces := by
      by_cases hfront : front = []
      · by_cases hrear : rear = [] <;> simp_all [Option.bind_eq_some_iff]
      · by_cases hrear : rear = [] <;> simp_all [Option.bind_eq_some_iff]
    obtain ⟨left, right, hleft, hright, hall⟩ := hsides
    split at hall
    · cases hall
      refine ⟨by simp; omega, ?_⟩
      intro n hn
      simp only [List.mem_append, List.mem_replicate] at hn
      rcases hn with (hn | hn) | hn
      · exact ipv6Side_lt hleft n hn
      · omega
      · exact ipv6Side_lt hright n hn
    · exact nomatch hall
  · simp only [Option.bind_eq_bind, Option.bind_eq_some_iff] at h
    obtain ⟨found, hfound, hall⟩ := h
    split at hall
    · cases hall
      exact ⟨by assumption, ipv6Pieces?_lt hfound⟩
    · exact nomatch hall

end Ipv6

theorem mem_ipv4Text {address : Nat} {c : Char} (h : c ∈ (ipv4Text address).toList) :
    c = '.' ∨ Text.isDigit c = true := by
  rw [toList_ipv4Text] at h
  rcases Text.mem_intercalate h with h | ⟨part, hpart, hc⟩
  · exact .inl (List.mem_singleton.mp h)
  · obtain ⟨n, -, rfl⟩ := List.mem_map.mp hpart
    exact .inr (Text.isDigit_of_mem_toDigits hc)

theorem mem_ipv6Text {pieces : List Nat} {c : Char} (h : c ∈ (ipv6Text pieces).toList) :
    c = ':' ∨ ∃ d < 16, c = Nat.digitChar d := by
  have hgroups : ∀ pieces, c ∈ groups pieces → c = ':' ∨ ∃ d < 16, c = Nat.digitChar d := by
    intro pieces h
    rcases Text.mem_intercalate h with h | ⟨part, hpart, hc⟩
    · exact .inl (List.mem_singleton.mp h)
    · obtain ⟨n, -, rfl⟩ := List.mem_map.mp hpart
      exact .inr (digit_of_mem_toDigits hc)
  unfold ipv6Text at h
  split at h
  · simp only [String.toList_append, List.mem_append, toList_piecesText] at h
    rcases h with (h | h) | h
    · exact hgroups _ h
    · have hcolon : ∀ c ∈ "::".toList, c = ':' := by simp
      exact .inl (hcolon c h)
    · exact hgroups _ h
  · rw [toList_piecesText] at h
    exact hgroups _ h

end Address

end BlobStorage.Url
