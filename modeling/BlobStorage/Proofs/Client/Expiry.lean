import BlobStorage.Proofs.Client.Put
import BlobStorage.Proofs.Text.Utf8
import BlobStorage.Proofs.Time.Stamp
import Mathlib.Algebra.Group.Nat.Defs
import Mathlib.Data.List.Forall2

-- The instant at which a signed URL ends: seconds and nanoseconds are added exactly, or else nothing is
-- asked of the store.
namespace BlobStorage

namespace Text

-- The letters of a word, each of them small or capital. A capital stands 32 in front of its small letter.
def Spells (text word : String) : Prop :=
  List.Forall₂ (fun c d => c = d ∨ c.toNat + 32 = d.toNat) text.toList word.toList

theorem lowered_eq_iff {c d : Char} (hd : 97 ≤ d.toNat ∧ d.toNat ≤ 122) :
    (if 65 ≤ c.toNat ∧ c.toNat ≤ 90 then Char.ofNat (c.toNat + 32) else c) = d ↔
      c = d ∨ c.toNat + 32 = d.toNat := by
  have hinj : ∀ a b : Char, a = b ↔ a.toNat = b.toNat :=
    fun a b => ⟨congrArg _, fun h => Char.toNat_inj.mp h⟩
  split
  · rename_i hcapital
    have hvalid : (Char.ofNat (c.toNat + 32)).toNat = c.toNat + 32 := by
      rw [toNat_charOfNat, if_pos (.inl (by omega))]
    rw [hinj, hvalid, hinj]
    omega
  · rw [hinj]
    omega

theorem asciiLower_eq_iff {text word : String}
    (hword : (word.toList.all fun d => 97 ≤ d.toNat ∧ d.toNat ≤ 122) = true) :
    asciiLower text = word ↔ Spells text word := by
  rw [asciiLower, ← String.toList_inj, String.toList_ofList, Spells]
  generalize text.toList = cs
  generalize word.toList = ds at hword
  induction cs generalizing ds with
  | nil =>
    rw [List.map_nil, List.forall₂_nil_left_iff]
    exact eq_comm
  | cons c cs ih =>
    cases ds with
    | nil => exact iff_of_false nofun nofun
    | cons d ds =>
      rw [List.all_cons, Bool.and_eq_true, decide_eq_true_eq] at hword
      obtain ⟨hd, hds⟩ := hword
      rw [List.map_cons, List.cons_eq_cons, List.forall₂_cons, lowered_eq_iff hd, ih ds hds]

end Text

namespace Instant

-- The rest of a second behind the whole ones, in nanoseconds.
def subsecond (t : Instant) : Nat := (t.nanos % Span.second).toNat

-- The nanoseconds behind the whole seconds may add up to a second more.
theorem after_parts (t : Instant) (span : Span) :
    (t.after span).seconds =
        t.seconds + span.seconds + ((t.subsecond + span.subsecond) / Span.second : Nat) ∧
      (t.after span).subsecond = (t.subsecond + span.subsecond) % Span.second := by
  have hsum : (t.after span).nanos = t.nanos + span.nanos := rfl
  rw [seconds_eq, seconds_eq, subsecond, subsecond, hsum, Span.seconds, Span.subsecond, Span.second]
  omega

-- The last instant is the last nanosecond of the year 262142.
example : last.stamp = "+262142-12-31T23:59:59Z" ∧ last.subsecond = 999999999 := by decide +kernel

end Instant

namespace SignAction

-- What an action is called.
def word : SignAction → String
  | .get => "get"
  | .put => "put"

theorem asciiLower_eq_word_iff {action : String} (intent : SignAction) :
    Text.asciiLower action = intent.word ↔ Text.Spells action intent.word := by
  refine Text.asciiLower_eq_iff ?_
  cases intent <;> rfl

theorem parse_of_spells {action : String} {intent : SignAction}
    (h : Text.Spells action intent.word) : parse action = .ok intent := by
  have hlower := (asciiLower_eq_word_iff intent).mpr h
  rw [parse, hlower]
  cases intent <;> rfl

theorem parse_of_not_spells {action : String}
    (h : ∀ intent : SignAction, ¬Text.Spells action intent.word) :
    parse action = .error (.actionNotSupported action) := by
  have hget : Text.asciiLower action ≠ "get" := mt (asciiLower_eq_word_iff .get).mp (h .get)
  have hput : Text.asciiLower action ≠ "put" := mt (asciiLower_eq_word_iff .put).mp (h .put)
  rw [parse, if_neg hget, if_neg hput]

end SignAction

namespace Client

section Expiry

variable {now : Instant} {validity : Span}

theorem expiry_of_long (h : maxValidity < validity.nanos) :
    expiry now validity =
      .error (.invalidInput ("validity " ++ validity.text ++ " is too long")) := by
  rw [expiry, if_pos h]

theorem expiry_of_late (hcounted : validity.nanos ≤ maxValidity)
    (h : Instant.last.nanos < now.nanos + validity.nanos) :
    expiry now validity = .error (.invalidInput "validity is too long") := by
  have hlate : ¬(now.after validity).nanos ≤ Instant.last.nanos := Int.not_le_of_gt h
  rw [expiry, if_neg (Nat.not_lt_of_le hcounted), Instant.after?, if_neg hlate]

theorem expiry_of_fits (hcounted : validity.nanos ≤ maxValidity)
    (h : now.nanos + validity.nanos ≤ Instant.last.nanos) :
    expiry now validity = .ok (now.after validity) := by
  have hfits : (now.after validity).nanos ≤ Instant.last.nanos := h
  rw [expiry, if_neg (Nat.not_lt_of_le hcounted), Instant.after?, if_pos hfits]

-- The last instant can be an expiry, and none behind it.
example : (expiry ⟨Instant.last.nanos - 1⟩ ⟨1⟩).toOption = some Instant.last ∧
    (expiry Instant.last ⟨1⟩).toOption = none := by decide +kernel

theorem expiry_eq {t : Instant} (h : expiry now validity = .ok t) : t = now.after validity := by
  by_cases hcounted : validity.nanos ≤ maxValidity
  · by_cases hfits : now.nanos + validity.nanos ≤ Instant.last.nanos
    · rw [expiry_of_fits hcounted hfits] at h
      exact (Except.ok.inj h).symm
    · rw [expiry_of_late hcounted (Int.lt_of_not_ge hfits)] at h
      exact nomatch h
  · rw [expiry_of_long (Nat.lt_of_not_le hcounted)] at h
    exact nomatch h

end Expiry

section Sign

variable {σ : Type} {c : Client σ} (key : String) {action : String} {validity : Span}
  (s : Session σ)

theorem sign_of_unsupported {failure : Failure} (h : SignAction.parse action = .error failure) :
    c.sign key action validity s = (.error failure, s) := by
  rw [sign, h]

variable {intent : SignAction} (hintent : SignAction.parse action = .ok intent)
include hintent

theorem sign_of_unexpirable {failure : Failure}
    (h : expiry c.backend.now validity = .error failure) :
    c.sign key action validity s = (.error failure, s) := by
  simp only [sign, hintent, h]

theorem sign_of_expiry {t : Instant} (h : expiry c.backend.now validity = .ok t) :
    (c.sign key action validity s).1 =
        (c.backend.signedUrl s.store key intent.permissions t).result.map
          (fun url => (url.appendQuery [c.timeoutParameter intent]).text) ∧
      (c.sign key action validity s).2.store =
        (c.backend.signedUrl s.store key intent.permissions t).store := by
  simp only [sign, hintent, h, Session.call]
  cases (c.backend.signedUrl s.store key intent.permissions t).result <;> exact ⟨rfl, rfl⟩

end Sign

section Traced

variable {σ : Type} (b : Backend σ) (policy : SignPolicy) (key action : String) (validity : Span)
  (s : Session σ)

-- What signing gives, what it leaves in the store, and which calls it makes.
def signTrace : Except Failure String × σ × List Backend.Call :=
  let outcome := sign ⟨b.recording, policy⟩ key action validity ⟨(s.store, []), s.files, s.events⟩
  (outcome.1, outcome.2.store)

-- The ways that signing can go. The expiry is the clock and the validity, added with what the
-- nanoseconds carry.
structure SignTraced : Prop where
  unsupported : (∀ intent : SignAction, ¬Text.Spells action intent.word) →
    signTrace b policy key action validity s =
      (.error (.actionNotSupported action), s.store, [])
  tooLong : ∀ intent : SignAction, Text.Spells action intent.word →
    (2 ^ 63 - 1) * 1000000 < validity.nanos →
    signTrace b policy key action validity s =
      (.error (.invalidInput ("validity " ++ validity.text ++ " is too long")), s.store, [])
  tooLate : ∀ intent : SignAction, Text.Spells action intent.word →
    validity.nanos ≤ (2 ^ 63 - 1) * 1000000 →
    Instant.last.nanos < b.now.nanos + validity.nanos →
    signTrace b policy key action validity s =
      (.error (.invalidInput "validity is too long"), s.store, [])
  signed : ∀ intent : SignAction, Text.Spells action intent.word →
    validity.nanos ≤ (2 ^ 63 - 1) * 1000000 →
    b.now.nanos + validity.nanos ≤ Instant.last.nanos →
    ∃ t : Instant, t.nanos = b.now.nanos + validity.nanos ∧
      t.seconds = b.now.seconds + validity.seconds +
        ((b.now.subsecond + validity.subsecond) / Span.second : Nat) ∧
      t.subsecond = (b.now.subsecond + validity.subsecond) % Span.second ∧
      signTrace b policy key action validity s =
        ((b.signedUrl s.store key intent.permissions t).result.map
            (fun url => (url.appendQuery [timeoutParameter ⟨b, policy⟩ intent]).text),
          (b.signedUrl s.store key intent.permissions t).store,
          [.signedUrl key intent.permissions t])
  untraced : (signTrace b policy key action validity s).1 =
      (sign ⟨b, policy⟩ key action validity s).1 ∧
    (signTrace b policy key action validity s).2.1 =
      (sign ⟨b, policy⟩ key action validity s).2.store

section Expirable

variable {action validity}

theorem signTrace_of_unsupported {failure : Failure}
    (h : SignAction.parse action = .error failure) :
    signTrace b policy key action validity s = (.error failure, s.store, []) := by
  rw [signTrace, sign_of_unsupported _ _ h]

variable {intent : SignAction} (hintent : SignAction.parse action = .ok intent)
include hintent

theorem signTrace_of_unexpirable {failure : Failure} (h : expiry b.now validity = .error failure) :
    signTrace b policy key action validity s = (.error failure, s.store, []) := by
  have hrecording : expiry b.recording.now validity = .error failure := h
  rw [signTrace, sign_of_unexpirable (c := ⟨b.recording, policy⟩) _ _ hintent hrecording]

theorem signTrace_of_expiry {t : Instant} (h : expiry b.now validity = .ok t) :
    signTrace b policy key action validity s =
      ((b.signedUrl s.store key intent.permissions t).result.map
          (fun url => (url.appendQuery [timeoutParameter ⟨b, policy⟩ intent]).text),
        (b.signedUrl s.store key intent.permissions t).store,
        [.signedUrl key intent.permissions t]) := by
  have hrecording : expiry b.recording.now validity = .ok t := h
  obtain ⟨hresult, hstore⟩ := sign_of_expiry (c := ⟨b.recording, policy⟩) key
    ⟨(s.store, []), s.files, s.events⟩ hintent hrecording
  rw [signTrace, hresult, hstore]
  rfl

end Expirable

-- Noting the calls changes nothing else.
theorem signTrace_untraced :
    (signTrace b policy key action validity s).1 = (sign ⟨b, policy⟩ key action validity s).1 ∧
      (signTrace b policy key action validity s).2.1 =
        (sign ⟨b, policy⟩ key action validity s).2.store := by
  cases hintent : SignAction.parse action with
  | error failure =>
    rw [signTrace_of_unsupported b policy key s hintent, sign_of_unsupported key s hintent]
    exact ⟨rfl, rfl⟩
  | ok intent =>
    cases hexpiry : expiry b.now validity with
    | error failure =>
      rw [signTrace_of_unexpirable b policy key s hintent hexpiry,
        sign_of_unexpirable (c := ⟨b, policy⟩) key s hintent hexpiry]
      exact ⟨rfl, rfl⟩
    | ok t =>
      obtain ⟨hresult, hstore⟩ := sign_of_expiry (c := ⟨b, policy⟩) key s hintent hexpiry
      rw [signTrace_of_expiry b policy key s hintent hexpiry, hresult, hstore]
      exact ⟨rfl, rfl⟩

-- Whatever the clock, the validity, the action and the key are, signing makes one call or none: one
-- exactly when the action is get or put, and the validity and the expiry are in range.
theorem sign_traced : SignTraced b policy key action validity s where
  unsupported h := signTrace_of_unsupported b policy key s (SignAction.parse_of_not_spells h)
  tooLong _ hspells h :=
    signTrace_of_unexpirable b policy key s (SignAction.parse_of_spells hspells) (expiry_of_long h)
  tooLate _ hspells hcounted h :=
    signTrace_of_unexpirable b policy key s (SignAction.parse_of_spells hspells)
      (expiry_of_late hcounted h)
  signed _ hspells hcounted h := by
    obtain ⟨hseconds, hsubsecond⟩ := b.now.after_parts validity
    refine ⟨b.now.after validity, rfl, hseconds, hsubsecond, ?_⟩
    exact signTrace_of_expiry b policy key s (SignAction.parse_of_spells hspells)
      (expiry_of_fits hcounted h)
  untraced := signTrace_untraced b policy key action validity s

end Traced

end Client

end BlobStorage
