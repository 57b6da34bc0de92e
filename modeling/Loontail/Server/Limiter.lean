import Loontail.Server.RateLimit

/-! # The limiter as a whole

Clients whose address is known have a bucket for each key. The others share one, under
a lock of its own. -/

namespace Loontail.Server

open Sliding

structure Limiter where
  hits : Buckets
  unresolved : List Nat

namespace Limiter

def new : Limiter := ⟨.default, []⟩

/-- `check_unresolved_at`. -/
def checkUnresolvedAt (limiter : Limiter) (config : RateLimitConfig) (now : Nat) :
    Bool × Limiter :=
  let (admitted, unresolved) :=
    attempt config.maxAttempts (config.cutoff now) now limiter.unresolved
  (admitted, { limiter with unresolved })

end Limiter

structure Visit where
  client : Option IpAddr
  now : Nat
deriving DecidableEq, Repr

def Visit.drawer (visit : Visit) : Option IpAddr := visit.client.map limiterKey

namespace Limiter

def check (limiter : Limiter) (config : RateLimitConfig) (visit : Visit) : Bool × Limiter :=
  match visit.client with
  | some ip =>
      let (admitted, hits) := limiter.hits.checkAt config ip visit.now
      (admitted, { limiter with hits })
  | none => limiter.checkUnresolvedAt config visit.now

def bucket (limiter : Limiter) : Option IpAddr → List Nat
  | some key => limiter.hits.bucket key
  | none => limiter.unresolved

def prepare (limiter : Limiter) (config : RateLimitConfig) (visit : Visit) : Limiter :=
  match visit.drawer with
  | some key => { limiter with hits := limiter.hits.prepare config key visit.now }
  | none => limiter

/-- To make room for the key of the visit, the bucket is evicted. -/
def Evicts (limiter : Limiter) (config : RateLimitConfig) (visit : Visit)
    (drawer : Option IpAddr) : Prop :=
  ∃ own key, visit.drawer = some own ∧ drawer = some key ∧
    key ∈ (limiter.hits.sweepIfDue visit.now (config.cutoff visit.now) config.window).map ∧
    key ∉ (limiter.hits.prepare config own visit.now).map

end Limiter

/-! ## Runs -/

structure Season where
  limiter : Limiter
  admitted : List (Option IpAddr × Nat)

namespace Season

def start : Season := ⟨.new, []⟩

def step (config : RateLimitConfig) (season : Season) (visit : Visit) : Season :=
  let (admits, limiter) := season.limiter.check config visit
  { limiter
    admitted := if admits then season.admitted ++ [(visit.drawer, visit.now)]
      else season.admitted }

def of (config : RateLimitConfig) (visits : List Visit) : Season :=
  visits.foldl (step config) start

theorem of_append (config : RateLimitConfig) (visits : List Visit) (visit : Visit) :
    of config (visits ++ [visit]) = step config (of config visits) visit := by
  rw [of, List.foldl_append]
  rfl

def admissions (season : Season) (drawer : Option IpAddr) : List Nat :=
  (season.admitted.filter (·.1 = drawer)).map (·.2)

def recent (season : Season) (drawer : Option IpAddr) (window time : Nat) : Nat :=
  (season.admissions drawer).countP fun admitted => time < admitted + window ∧ admitted ≤ time

theorem admissions_step (config : RateLimitConfig) (season : Season) (visit : Visit)
    (drawer : Option IpAddr) :
    (season.step config visit).admissions drawer =
      season.admissions drawer ++
        if (season.limiter.check config visit).1 = true ∧ visit.drawer = drawer then [visit.now]
        else [] := by
  unfold step admissions
  cases admits : (season.limiter.check config visit).1 with
  | false => simp [admits]
  | true =>
      by_cases same : visit.drawer = drawer
      · simp [admits, same]
      · simp [admits, same]

end Season

/-! ## What a visit does -/

namespace Limiter

variable {limiter : Limiter} {config : RateLimitConfig} {visit : Visit}
  {drawer : Option IpAddr}

theorem check_attempt :
    (limiter.check config visit).1 =
        (attempt config.maxAttempts (config.cutoff visit.now) visit.now
          ((limiter.prepare config visit).bucket visit.drawer)).1 ∧
      (limiter.check config visit).2.bucket visit.drawer =
        (attempt config.maxAttempts (config.cutoff visit.now) visit.now
          ((limiter.prepare config visit).bucket visit.drawer)).2 := by
  obtain ⟨client, now⟩ := visit
  cases client with
  | none => exact ⟨rfl, rfl⟩
  | some ip => exact ⟨rfl, Buckets.bucket_checkAt_self⟩

theorem bucket_check_other (different : drawer ≠ visit.drawer) :
    (limiter.check config visit).2.bucket drawer =
      (limiter.prepare config visit).bucket drawer := by
  obtain ⟨client, now⟩ := visit
  cases client with
  | none =>
      cases drawer with
      | none => exact (different rfl).elim
      | some key => rfl
  | some ip =>
      cases drawer with
      | none => rfl
      | some key => exact Buckets.bucket_checkAt_other fun same => different (congrArg some same)

theorem lastSweep_check :
    (limiter.check config visit).2.hits.lastSweep =
      (limiter.prepare config visit).hits.lastSweep := by
  obtain ⟨client, now⟩ := visit
  cases client <;> rfl

end Limiter

end Loontail.Server
