import ArangeTun.Client.Handshake
import ArangeTun.Client.Pool

/-! # The client -/

namespace ArangeTun.Client

open Go Wire Transition

/-! ## The fallback to the legacy handshake -/

/-- `legacyServer` becomes true only in an attempt that asked for the current handshake and whose answer
failed to arrive for another reason than the read deadline. -/
def NoTimeoutDowngrade (transport : Transport) (token : Str) (attempts : List Attempt) : Prop :=
  ∀ before a after, attempts = before ++ a :: after → legacyAfter transport token before = false →
    legacyAfter transport token (before ++ [a]) = true →
    ∃ err, (attempt transport token false a).1 = .receiveFailed SG_ChanV2 err ∧ err.cause ≠ .net true

/-- The first attempt without a whole answer does not end by the read deadline. -/
def FirstUnansweredNotTimeout (transport : Transport) (attempts : List Attempt) : Prop :=
  ∀ a, attempts.find? (fun a => decide (a.Unanswered transport)) = some a →
    a.answer.ending.cause ≠ .net true

theorem noTimeoutDowngrade_iff (transport : Transport) (token : Str) (attempts : List Attempt) :
    NoTimeoutDowngrade transport token attempts ↔ FirstUnansweredNotTimeout transport attempts := by
  have hbefore (before : List Attempt) : legacyAfter transport token before = false ↔
      ∀ x ∈ before, ¬ x.Unanswered transport := by
    rw [legacyAfter_eq, List.any_eq_false]
    simp only [decide_eq_true_eq]
  constructor
  · intro h a ha
    obtain ⟨hu, before, after, rfl, hfirst⟩ := List.find?_eq_some_iff_append.mp ha
    simp only [decide_eq_true_eq] at hu
    obtain ⟨err, he, hcause⟩ := attempt_unanswered token hu
    have hnone : legacyAfter transport token before = false := by
      rw [hbefore]
      simpa using hfirst
    have hflip : legacyAfter transport token (before ++ [a]) = true := by
      rw [legacyAfter_eq]
      simp [hu]
    obtain ⟨err', he', hne⟩ := h before a after rfl hnone hflip
    rw [he] at he'
    cases he'
    exact fun hc => hne (hcause.mpr hc)
  · rintro h before a after rfl hnone hflip
    rw [hbefore] at hnone
    have hu : a.Unanswered transport := by
      rw [legacyAfter_eq, List.any_append, List.any_eq_false.mpr (by simpa using hnone)] at hflip
      simpa using hflip
    obtain ⟨err, he, hcause⟩ := attempt_unanswered token hu
    refine ⟨err, by rw [he], fun hc => ?_⟩
    refine h a (List.find?_eq_some_iff_append.mpr ⟨by simpa using hu, before, after, rfl, ?_⟩) (hcause.mp hc)
    simpa using hnone

/-- A server that is slow for one deadline is taken for a legacy one, on both transports. -/
theorem timeout_downgrades :
    ¬ NoTimeoutDowngrade .tcp (lit "t") [⟨true, true, true, true, ⟨[], .net true⟩⟩] ∧
    ¬ NoTimeoutDowngrade .tcpmux (lit "t") [⟨true, true, true, true, ⟨[], .net true⟩⟩] := by
  constructor
  · intro h
    obtain ⟨err, he, hne⟩ := h [] _ [] rfl (by decide) (by decide)
    cases he
    exact hne rfl
  · intro h
    obtain ⟨err, he, hne⟩ := h [] _ [] rfl (by decide) (by decide)
    cases he
    exact hne rfl

/-- Every call of `tunnelDialer` is accounted for, and the pool stays between its configured size and four
times that. -/
theorem pool_accounts {cfg : PoolConfig} {p : Pool} (h : Reach (poolStep cfg) Any .initial p) :
    ∀ newPoolSize, p.maintainer.newPoolSize = some newPoolSize →
      (p.dialers : Int) = newPoolSize + p.handled + p.tokens ∧
      (0 < cfg.connPoolSize → cfg.connPoolSize ≤ newPoolSize ∧ newPoolSize ≤ 4 * cfg.connPoolSize) := by
  have hacc : Accounts cfg p :=
    h.invariant accounts_initial fun _ _ _ hi _ hs => accounts_step hi hs
  exact fun n hn => ⟨hacc.balanced n hn, hacc.bounds n hn⟩

def growAndShrink : List PoolAction :=
  [.fill, .fill, .tickLoad 30 0 0, .message SG_Chan true, .tickLoad 0 90 0]

theorem pool_accounts_growAndShrink :
    ∃ p : Pool, Reach (poolStep (applyDefaults 1 false)) Any .initial p ∧
      p.maintainer = .pushing 1 ∧ (p.dialers : Int) = 1 + p.handled + p.tokens := by
  have hrun : ∃ p : Pool, Reach (poolStep (applyDefaults 1 false)) Any .initial p ∧
      p.maintainer = .pushing 1 :=
    exists_reach growAndShrink (by decide +kernel)
  obtain ⟨p, hp, hm⟩ := hrun
  exact ⟨p, hp, hm, (pool_accounts hp 1 (by rw [hm]; rfl)).1⟩

end ArangeTun.Client
