import Loontail.Server.RateLimit

/-! # The limiter stays bounded and evicts fairly

Whatever the keys and the times, the map stays under its cap, and what makes room
at the cap are the keys that were admitted longest ago. -/

namespace Loontail.Server

open Sliding

def Trail.newest (trail : Trail) (key : IpAddr) : Option Nat :=
  (trail.admissions key).getLast?

theorem Trail.newest_record (trail : Trail) (call : Attempt) (admits : Bool)
    (key : IpAddr) :
    (trail.record call admits).newest key =
      if admits = true ∧ limiterKey call.ip = key then some call.now
      else trail.newest key := by
  rw [newest, newest, admissions_record]
  split
  · exact List.getLast?_concat
  · rw [List.append_nil]

/-- The map is under its cap, each bucket is within the budget, and it ends with
the newest admission of its key. -/
structure Bounded (config : RateLimitConfig) (buckets : Buckets) (trail : Trail) :
    Prop where
  size : buckets.map.size ≤ maxTrackedIps
  length : ∀ key hits, buckets.map.lookup key = some hits →
    hits.length ≤ config.maxAttempts
  ends : ∀ key hits, buckets.map.lookup key = some hits →
    ∃ hit, hits.getLast? = some hit ∧ trail.newest key = some hit

namespace Buckets

variable {config : RateLimitConfig} {buckets : Buckets} {key : IpAddr} {now : Nat}

theorem size_prepare (within : buckets.map.size ≤ maxTrackedIps) :
    (key ∈ (buckets.prepare config key now).map ∧
      (buckets.prepare config key now).map.size ≤ maxTrackedIps) ∨
    (buckets.prepare config key now).map.size + 1 ≤ maxTrackedIps := by
  have swept := le_trans
    (@size_sweepIfDue buckets now (config.cutoff now) config.window) within
  rw [prepare, makeRoom]
  split
  · rw [size_evictStalest]
    have batch : 1 ≤ evictBatch ∧ 1 ≤ maxTrackedIps := by decide
    omega
  · rename_i room
    by_cases tracked : key ∈ (buckets.sweepIfDue now (config.cutoff now) config.window).map
    · exact .inl ⟨tracked, swept⟩
    · exact .inr (Nat.lt_of_not_le fun full => room ⟨full, tracked⟩)

theorem size_checkAt {ip : IpAddr} (within : buckets.map.size ≤ maxTrackedIps) :
    (buckets.checkAt config ip now).2.map.size ≤ maxTrackedIps := by
  rcases size_prepare within with ⟨tracked, fits⟩ | room
  · exact le_of_eq_of_le (Keyed.size_insert_of_mem tracked _) fits
  · exact le_trans (Keyed.size_insert_le _ _ _) room

theorem admits_of_unready {ip : IpAddr} (positive : 1 ≤ config.maxAttempts)
    (absent : limiterKey ip ∉ (buckets.prepare config (limiterKey ip) now).map) :
    (buckets.checkAt config ip now).1 = true := by
  have decision : (buckets.checkAt config ip now).1 = (attempt config.maxAttempts
      (config.cutoff now) now ((buckets.prepare config (limiterKey ip) now).bucket
        (limiterKey ip))).1 := rfl
  rw [decision, bucket_of_not_mem absent, attempt_admits .nil, live_nil]
  exact decide_eq_true positive

theorem admits_of_not_mem {ip : IpAddr} (positive : 1 ≤ config.maxAttempts)
    (untracked : limiterKey ip ∉ buckets.map) :
    (buckets.checkAt config ip now).1 = true := by
  apply admits_of_unready positive
  intro member
  rcases Keyed.lookup_of_mem member with ⟨hits, found⟩
  exact untracked (Keyed.mem_of_lookup (lookup_of_prepare found))

end Buckets

namespace Bounded

variable {config : RateLimitConfig} {buckets : Buckets} {trail : Trail}

theorem start (config : RateLimitConfig) : Bounded config .default .empty where
  size := Nat.zero_le _
  length := by
    intro key hits found
    cases found
  ends := by
    intro key hits found
    cases found

theorem checkAt (bounded : Bounded config buckets trail)
    (positive : 1 ≤ config.maxAttempts) (call : Attempt) :
    Bounded config (buckets.checkAt config call.ip call.now).2
      (trail.record call (buckets.checkAt config call.ip call.now).1) where
  size := Buckets.size_checkAt bounded.size
  length := by
    intro key hits found
    rcases Buckets.lookup_of_checkAt found with ⟨-, rfl⟩ | ⟨-, before⟩
    · apply length_attempt
      cases ready : (buckets.prepare config (limiterKey call.ip) call.now).map.lookup
          (limiterKey call.ip) with
      | none =>
          rw [Buckets.bucket, ready]
          exact Nat.zero_le _
      | some hits =>
          rw [Buckets.bucket_of_lookup ready]
          exact bounded.length _ hits (Buckets.lookup_of_prepare ready)
    · exact bounded.length key hits (Buckets.lookup_of_prepare before)
  ends := by
    intro key hits found
    rw [Trail.newest_record]
    rcases Buckets.lookup_of_checkAt found with ⟨rfl, rfl⟩ | ⟨different, before⟩
    · have decision : (buckets.checkAt config call.ip call.now).1 =
          (attempt config.maxAttempts (config.cutoff call.now) call.now
            ((buckets.prepare config (limiterKey call.ip) call.now).bucket
              (limiterKey call.ip))).1 := rfl
      rw [getLast?_attempt positive, ← decision]
      cases admits : (buckets.checkAt config call.ip call.now).1 with
      | true => exact ⟨call.now, by simp, by simp⟩
      | false =>
          -- a refusal leaves a full bucket, so its key was tracked
          cases ready : (buckets.prepare config (limiterKey call.ip) call.now).map.lookup
              (limiterKey call.ip) with
          | none =>
              have admitted := Buckets.admits_of_unready positive
                (AList.lookup_eq_none.mp ready)
              rw [admits] at admitted
              cases admitted
          | some hits =>
              rw [Buckets.bucket_of_lookup ready]
              simpa using bounded.ends _ hits (Buckets.lookup_of_prepare ready)
    · rw [if_neg fun both => different both.2.symm]
      exact bounded.ends key hits (Buckets.lookup_of_prepare before)

/-- What making room evicts was admitted no later than anything that stays. -/
theorem evicts {key other : IpAddr} {touched : IpAddr}
    (bounded : Bounded config buckets trail) (now : Nat)
    (tracked : key ∈ (buckets.sweepIfDue now (config.cutoff now) config.window).map)
    (evicted : key ∉ (buckets.prepare config touched now).map)
    (stays : other ∈ (buckets.prepare config touched now).map) :
    ∃ stale fresh, trail.newest key = some stale ∧ trail.newest other = some fresh ∧
      stale ≤ fresh := by
  rcases Keyed.lookup_of_mem tracked with ⟨hits, found⟩
  rcases Keyed.lookup_of_mem stays with ⟨kept, keptFound⟩
  rcases bounded.ends key hits (Buckets.lookup_of_sweepIfDue found) with
    ⟨stale, last, newest⟩
  rcases bounded.ends other kept (Buckets.lookup_of_prepare keptFound) with
    ⟨fresh, keptLast, keptNewest⟩
  refine ⟨stale, fresh, newest, keptNewest, ?_⟩
  rw [Buckets.prepare, Buckets.makeRoom] at evicted keptFound
  split at evicted
  · rename_i full
    rw [if_pos full] at keptFound
    have order := Buckets.staler_of_evictStalest found evicted keptFound
    rw [last, keptLast] at order
    simp only [Buckets.staler, Bool.or_eq_true, Bool.and_eq_true, decide_eq_true_eq] at order
    omega
  · exact absurd tracked evicted

end Bounded

theorem bounded_of_run {config : RateLimitConfig} (positive : 1 ≤ config.maxAttempts)
    (calls : List Attempt) :
    Bounded config (Run.of config calls).buckets (Run.of config calls).trail := by
  induction calls using List.reverseRecOn with
  | nil => exact .start config
  | append_singleton calls call induction =>
      rw [Run.of_append]
      exact induction.checkAt positive call

/-- In every run the map stays under its cap and each bucket within the budget and
in order; a call of an untracked key is admitted, and what it evicts to make room
was admitted no later than anything it keeps. -/
theorem limiter_bounds (config : RateLimitConfig) (calls : List Attempt)
    (positive : 1 ≤ config.maxAttempts) (ordered : Ordered calls) :
    let run := Run.of config calls
    run.buckets.map.size ≤ maxTrackedIps ∧
    (∀ key hits, run.buckets.map.lookup key = some hits →
      hits.length ≤ config.maxAttempts ∧ hits.Pairwise (· ≤ ·)) ∧
    (∀ call : Attempt, limiterKey call.ip ∉ run.buckets.map →
      (run.buckets.checkAt config call.ip call.now).1 = true) ∧
    ∀ call : Attempt,
      let swept := run.buckets.sweepIfDue call.now (config.cutoff call.now) config.window
      let roomy := swept.makeRoom (limiterKey call.ip)
      ∀ evicted ∈ swept.map, evicted ∉ roomy.map → ∀ kept ∈ roomy.map,
        ∃ stale fresh, run.trail.newest evicted = some stale ∧
          run.trail.newest kept = some fresh ∧ stale ≤ fresh := by
  have bounded := bounded_of_run positive calls
  refine ⟨bounded.size, ?_, ?_, ?_⟩
  · intro key hits found
    rcases exists_clock calls with ⟨clock, past⟩
    exact ⟨bounded.length key hits found, (tidy_of_run ordered past key hits found).ordered⟩
  · intro call untracked
    exact Buckets.admits_of_not_mem positive untracked
  · intro call swept roomy evicted tracked gone kept stays
    exact bounded.evicts call.now tracked gone stays

/-- The last call comes a window after the first, whose bucket it sweeps away. -/
def sweepingCalls : List Attempt :=
  [⟨.v4 1, 105⟩, ⟨.v4 2, 140⟩, ⟨.v4 1, 141⟩, ⟨.v4 3, 170⟩]

/-- The first client is not tracked any more and is admitted, the second is still full. -/
theorem limiter_bounds_swept :
    (Run.of ⟨1, 60⟩ sweepingCalls).trail.decisions = [true, true, false, true] ∧
      (Run.of ⟨1, 60⟩ sweepingCalls).buckets.map.lookup (.v4 2) = some [140] ∧
      ((Run.of ⟨1, 60⟩ sweepingCalls).buckets.checkAt ⟨1, 60⟩ (.v4 2) 171).1 = false ∧
      ((Run.of ⟨1, 60⟩ sweepingCalls).buckets.checkAt ⟨1, 60⟩ (.v4 1) 171).1 = true := by
  have bounds := limiter_bounds ⟨1, 60⟩ sweepingCalls le_rfl (by decide)
  exact ⟨by decide +kernel, by decide +kernel, by decide +kernel,
    bounds.2.2.1 ⟨.v4 1, 171⟩ (by decide +kernel)⟩

end Loontail.Server
