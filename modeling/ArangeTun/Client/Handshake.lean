import ArangeTun.Wire.Frame
import ArangeTun.Wire.Model

/-!
# The client's control handshake

`channelDialer` of internal/client/transport/tcp.go and tcpmux.go, with handshake.go.
-/

namespace ArangeTun.Client

open Go Wire

inductive Transport
  | tcp
  | tcpmux
  deriving DecidableEq

structure Attempt where
  dialed : Bool
  stealth : Bool
  sent : Bool
  deadlineSet : Bool
  answer : Stream
  deriving DecidableEq

inductive Outcome
  | notSent
  | receiveFailed (signal : UInt8) (err : Error)
  | wrongToken
  | established (nonce : Str) (muxVersion : Nat)
  deriving DecidableEq

def controlSignal (legacy : Bool) : UInt8 := if legacy then SG_Chan else SG_ChanV2

def noteLegacyServer (legacy : Bool) (sent : UInt8) : Bool := if sent ≠ SG_ChanV2 then legacy else true

def decodeControlAck (ack : Str) (signal : UInt8) : ControlAck :=
  if signal ≠ SG_ChanV2 then ⟨ack, [], 0⟩ else Wire.decodeControlAck ack

/-- One turn of the loop of `channelDialer`: what comes of it, and `legacyServer` after it. -/
def attempt (transport : Transport) (token : Str) (legacyServer : Bool) (a : Attempt) : Outcome × Bool :=
  if a.dialed = false ∨ (transport = .tcp ∧ a.stealth = false) then (.notSent, legacyServer)
  else
    let signal := controlSignal legacyServer
    if a.sent = false ∨ a.deadlineSet = false then (.notSent, legacyServer)
    else
      match receiveBinaryTransportString a.answer with
      | .error err =>
        match err.asNetError with
        | some true => (.receiveFailed signal err, legacyServer)
        | _ => (.receiveFailed signal err, noteLegacyServer legacyServer signal)
      | .ok (message, ackSignal) =>
        let ack := decodeControlAck message ackSignal
        if ack.token = token then (.established ack.nonce ack.muxVersion, legacyServer)
        else (.wrongToken, legacyServer)

def legacyAfter (transport : Transport) (token : Str) (attempts : List Attempt) : Bool :=
  attempts.foldl (fun legacyServer a => (attempt transport token legacyServer a).2) false

def Attempt.Unanswered (transport : Transport) (a : Attempt) : Prop :=
  a.dialed = true ∧ (transport = .tcp → a.stealth = true) ∧ a.sent = true ∧ a.deadlineSet = true ∧
    ¬ HasFrame a.answer

instance (transport : Transport) : DecidablePred (Attempt.Unanswered transport) := fun a =>
  inferInstanceAs (Decidable (a.dialed = true ∧ (transport = .tcp → a.stealth = true) ∧ a.sent = true ∧
    a.deadlineSet = true ∧ ¬ HasFrame a.answer))

section

variable {transport : Transport} {token : Str} {a : Attempt}

theorem attempt_unanswered (token : Str) (h : a.Unanswered transport) :
    ∃ err, attempt transport token false a = (.receiveFailed SG_ChanV2 err, true) ∧
      (err.cause = .net true ↔ a.answer.ending.cause = .net true) := by
  obtain ⟨hd, hst, hs, hdl, hframe⟩ := h
  obtain ⟨err, herr, hnet, hcause⟩ := receive_of_not_hasFrame hframe
  refine ⟨err, ?_, hcause⟩
  have hstealth : ¬ (transport = .tcp ∧ a.stealth = false) := by
    rintro ⟨ht, hf⟩
    rw [hst ht] at hf
    cases hf
  simp only [attempt, hd, hstealth, hs, hdl, herr, hnet, Bool.true_eq_false, or_self, ↓reduceIte,
    controlSignal, noteLegacyServer, Bool.false_eq_true, ne_eq, not_true_eq_false]

theorem attempt_answered {legacyServer : Bool} (h : ¬ a.Unanswered transport) :
    (attempt transport token legacyServer a).2 = legacyServer := by
  unfold attempt
  split
  · rfl
  · rename_i hd
    simp only [not_or, Bool.not_eq_false, not_and] at hd
    simp only
    split
    · rfl
    · rename_i hs
      simp only [not_or, Bool.not_eq_false] at hs
      have hframe : HasFrame a.answer := by
        by_contra hf
        exact h ⟨hd.1, hd.2, hs.1, hs.2, hf⟩
      obtain ⟨⟨message, signal⟩, hr⟩ := receive_of_hasFrame hframe
      rw [hr]
      simp only
      split <;> rfl

theorem attempt_legacy : (attempt transport token true a).2 = true := by
  by_cases h : a.Unanswered transport
  · obtain ⟨hd, hst, hs, hdl, hframe⟩ := h
    obtain ⟨err, herr, hnet, _⟩ := receive_of_not_hasFrame hframe
    unfold attempt
    split
    · rfl
    · simp only [hs, hdl, herr, hnet, Bool.true_eq_false, or_self, ↓reduceIte, noteLegacyServer]
      split <;> rfl
  · exact attempt_answered h

end

theorem legacyAfter_eq (transport : Transport) (token : Str) (attempts : List Attempt) :
    legacyAfter transport token attempts = attempts.any fun a => decide (a.Unanswered transport) := by
  have hstay : ∀ as : List Attempt,
      as.foldl (fun legacyServer a => (attempt transport token legacyServer a).2) true = true := by
    intro as
    induction as with
    | nil => rfl
    | cons a as ih => rw [List.foldl_cons, attempt_legacy, ih]
  unfold legacyAfter
  induction attempts with
  | nil => rfl
  | cons a as ih =>
    rw [List.foldl_cons, List.any_cons]
    by_cases h : a.Unanswered transport
    · obtain ⟨err, he, _⟩ := attempt_unanswered token h
      rw [he, hstay]
      simp [h]
    · rw [attempt_answered h, ih]
      simp [h]

end ArangeTun.Client
