import BlobStorage.Proofs.Client.FiniteMap
import BlobStorage.Proofs.Service.SignedUrl
import BlobStorage.Proofs.Url.Delimited
import BlobStorage.Proofs.Url.Web

-- The timeouts of signed URLs. A policy orders spans, and a URL shows whole seconds: the order is kept,
-- but it is strict only where a full second lies between the two spans.
namespace BlobStorage

namespace Span

theorem second_pos : 0 < second := by decide

theorem seconds_le_seconds {a b : Span} (h : a.nanos ≤ b.nanos) : a.seconds ≤ b.seconds :=
  Nat.div_le_div_right h

theorem seconds_lt_seconds {a b : Span} :
    a.seconds < b.seconds ↔ ∃ n, a.nanos < n * second ∧ n * second ≤ b.nanos := by
  constructor
  · intro h
    refine ⟨b.seconds, ?_, Nat.div_mul_le_self b.nanos second⟩
    exact (Nat.div_lt_iff_lt_mul second_pos).mp h
  · rintro ⟨n, ha, hb⟩
    exact Nat.lt_of_lt_of_le ((Nat.div_lt_iff_lt_mul second_pos).mpr ha)
      ((Nat.le_div_iff_mul_le second_pos).mpr hb)

theorem one_le_seconds {a : Span} : 1 ≤ a.seconds ↔ second ≤ a.nanos := by
  rw [seconds, Nat.le_div_iff_mul_le second_pos, Nat.one_mul]

theorem nanos_of_whole {a : Span} (h : a.subsecond = 0) : a.nanos = a.seconds * second :=
  (Nat.div_mul_cancel (Nat.dvd_of_mod_eq_zero h)).symm

end Span

namespace SignPolicy

theorem new_inv {read write : Span} {policy : SignPolicy} (h : new read write = .ok policy) :
    policy.read = read ∧ policy.write = write ∧ 0 < read.nanos ∧ read.nanos < write.nanos := by
  unfold new at h
  split at h
  · rename_i hread
    split at h
    · rename_i hwrite
      cases h
      exact ⟨rfl, rfl, hread, hwrite⟩
    · exact nomatch h
  · exact nomatch h

-- Spans of whole seconds keep their strict order.
theorem whole_seconds (policy : SignPolicy) (hread : policy.read.subsecond = 0)
    (hwrite : policy.write.subsecond = 0) :
    1 ≤ policy.read.seconds ∧ policy.read.seconds < policy.write.seconds := by
  have hpos := policy.read_pos
  have hlt := policy.read_lt_write
  rw [Span.nanos_of_whole hread] at hpos hlt
  rw [Span.nanos_of_whole hwrite] at hlt
  exact ⟨Nat.pos_of_mul_pos_right hpos, Nat.lt_of_mul_lt_mul_right hlt⟩

end SignPolicy

-- Every URL that a backend signs has its query where its text shows one.
def Backend.SignsDelimited {σ : Type} (backend : Backend σ) : Prop :=
  ∀ store key permissions expiry url,
    (backend.signedUrl store key permissions expiry).result = .ok url → url.Delimited

namespace Memory

theorem containerUrl_delimited : containerUrl.Delimited where
  scheme := by decide
  authority := fun a ha => by
    cases ha
    exact ⟨by decide, by decide, by decide⟩
  path := by decide
  query := by decide

theorem backend_signsDelimited (settings : Settings) (now : Instant) :
    (backend settings now).SignsDelimited := by
  intro store key permissions expiry url h
  have hlook : (signedUrl key permissions expiry store.catalog).1 = .ok url := by
    have h : (attempt settings _ _ store.catalog).1 = .ok url := h
    unfold attempt at h
    split at h
    · exact nomatch h
    · exact h
  unfold signedUrl look at hlook
  dsimp only at hlook
  split at hlook
  · rename_i blob hblob
    cases hlook
    exact (containerUrl_delimited.extend? Url.Path.popEmpty_sublist hblob).appendQuery _
  · exact nomatch hlook

end Memory

namespace Service

theorem blobUrl_delimited {e : Endpoint} (hbase : e.base.Delimited) {key : String} {url : Url}
    (h : e.blobUrl key = .ok url) : url.Delimited := by
  obtain ⟨container, hcontainer, hblob⟩ := Endpoint.extend?_of_blobUrl h
  have hcontainer := Endpoint.extend?_of_containerUrl hcontainer
  exact (hbase.extend? Url.Path.popEmpty_sublist hcontainer).extend? List.Sublist.refl hblob

-- Any address may be that of a service.
theorem backend_signsDelimited {c : Configuration} {override : Option String} {now : Instant}
    {e : Endpoint} (he : Endpoint.new c override now = .ok e) : (backend e).SignsDelimited := by
  intro wire key permissions expiry url h
  obtain ⟨blob, hblob, rfl⟩ := signedUrl_eq h
  obtain ⟨-, hbase, -⟩ := Endpoint.of_new he
  exact (blobUrl_delimited (Url.delimited_of_parse hbase) hblob).appendQuery _

end Service

namespace Client

-- The timeout that the text of a signed URL shows.
def timeoutOf? (text : String) : Option Nat := (Url.parameter? "timeout" text).bind String.toNat?

theorem timeoutOf?_sign {σ : Type} {c : Client σ} (hbackend : c.backend.SignsDelimited)
    {key action text : String} {intent : SignAction} {validity : Span} {s : Session σ}
    (hintent : SignAction.parse action = .ok intent)
    (h : (c.sign key action validity s).1 = .ok text) :
    timeoutOf? text = some (intent.timeout c.policy).seconds := by
  obtain ⟨again, url, hagain, hurl, rfl⟩ := sign_eq h
  obtain rfl : intent = again := Except.ok.inj (hintent.symm.trans hagain)
  have hread := (hbackend _ _ _ _ _ hurl).parameter?_appendQuery [] (c.timeoutParameter intent)
  rw [timeoutOf?]
  rw [List.nil_append] at hread
  rw [show "timeout" = (c.timeoutParameter intent).1 from rfl, hread]
  exact Nat.toNat?_repr _

-- What the URLs of one policy show. A URL for writing never has the shorter timeout. It has the longer
-- one, and the one for reading a timeout at all, where the policy's spans are full seconds apart; those
-- of whole seconds always are.
theorem sign_timeouts {σ : Type} {backend : Backend σ} (hbackend : backend.SignsDelimited)
    {read write : Span} {policy : SignPolicy} (hpolicy : SignPolicy.new read write = .ok policy)
    {getter putter key key' text text' : String} {validity validity' : Span} {s s' : Session σ}
    (hgetter : SignAction.parse getter = .ok .get) (hputter : SignAction.parse putter = .ok .put)
    (hget : (sign ⟨backend, policy⟩ key getter validity s).1 = .ok text)
    (hput : (sign ⟨backend, policy⟩ key' putter validity' s').1 = .ok text') :
    ∃ short long, timeoutOf? text = some short ∧ timeoutOf? text' = some long ∧ short ≤ long ∧
      (1 ≤ short ↔ Span.second ≤ read.nanos) ∧
      (short < long ↔ ∃ n, read.nanos < n * Span.second ∧ n * Span.second ≤ write.nanos) ∧
      (read.subsecond = 0 → write.subsecond = 0 → 1 ≤ short ∧ short < long) := by
  obtain ⟨rfl, rfl, -, hlt⟩ := SignPolicy.new_inv hpolicy
  exact ⟨policy.read.seconds, policy.write.seconds, timeoutOf?_sign hbackend hgetter hget,
    timeoutOf?_sign hbackend hputter hput, Span.seconds_le_seconds (Nat.le_of_lt hlt),
    Span.one_le_seconds, Span.seconds_lt_seconds, policy.whole_seconds⟩

-- A client over memory, and what its store and its files start with.
def overMemory (policy : SignPolicy) : Client Memory.Store :=
  FiniteMap.client (FiniteMap.plain 1000) (.ofSeconds 0) policy

def fresh : Session Memory.Store := ⟨.empty, .empty, []⟩

theorem sign_timeouts_standard :
    ((overMemory .standard).backend.SignsDelimited ∧
      SignPolicy.new (.ofSeconds 1800) (.ofSeconds 2700) = .ok .standard ∧
      SignAction.parse "get" = .ok .get ∧ SignAction.parse "PUT" = .ok .put) ∧
    ∃ text text', ((overMemory .standard).sign "a/b" "get" (.ofSeconds 60) fresh).1 = .ok text ∧
      ((overMemory .standard).sign "a/b" "PUT" (.ofSeconds 60) fresh).1 = .ok text' ∧
      ∃ short long, timeoutOf? text = some short ∧ timeoutOf? text' = some long ∧
        1 ≤ short ∧ short < long := by
  have hbackend : (overMemory .standard).backend.SignsDelimited := Memory.backend_signsDelimited _ _
  obtain ⟨text, hget⟩ : ∃ text,
      ((overMemory .standard).sign "a/b" "get" (.ofSeconds 60) fresh).1 = .ok text := ⟨_, rfl⟩
  obtain ⟨text', hput⟩ : ∃ text,
      ((overMemory .standard).sign "a/b" "PUT" (.ofSeconds 60) fresh).1 = .ok text := ⟨_, rfl⟩
  have hpolicy : SignPolicy.new (.ofSeconds 1800) (.ofSeconds 2700) = .ok .standard := rfl
  obtain ⟨short, long, hshort, hlong, -, -, -, hwhole⟩ :=
    sign_timeouts hbackend hpolicy rfl rfl hget hput
  exact ⟨⟨hbackend, hpolicy, rfl, rfl⟩, text, text', hget, hput, short, long, hshort, hlong,
    hwhole rfl rfl⟩

-- A policy whose spans are one nanosecond apart.
def barely : SignPolicy := { read := .ofSeconds 1, write := ⟨1000000001⟩ }

-- Both of its URLs show the same second.
theorem sign_timeouts_equal :
    SignPolicy.new (.ofSeconds 1) ⟨1000000001⟩ = .ok barely ∧
    ∃ text text', ((overMemory barely).sign "k" "get" (.ofSeconds 60) fresh).1 = .ok text ∧
      ((overMemory barely).sign "k" "put" (.ofSeconds 60) fresh).1 = .ok text' ∧
      timeoutOf? text = some 1 ∧ timeoutOf? text' = some 1 := by
  have hbackend : (overMemory barely).backend.SignsDelimited := Memory.backend_signsDelimited _ _
  obtain ⟨text, hget⟩ : ∃ text,
      ((overMemory barely).sign "k" "get" (.ofSeconds 60) fresh).1 = .ok text := ⟨_, rfl⟩
  obtain ⟨text', hput⟩ : ∃ text,
      ((overMemory barely).sign "k" "put" (.ofSeconds 60) fresh).1 = .ok text := ⟨_, rfl⟩
  have hshort : (SignAction.get.timeout barely).seconds = 1 := by decide
  have hlong : (SignAction.put.timeout barely).seconds = 1 := by decide
  refine ⟨rfl, text, text', hget, hput, ?_, ?_⟩
  · rw [← hshort]
    exact timeoutOf?_sign hbackend rfl hget
  · rw [← hlong]
    exact timeoutOf?_sign hbackend rfl hput

end Client

end BlobStorage
