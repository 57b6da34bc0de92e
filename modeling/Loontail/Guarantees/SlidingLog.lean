import Loontail.Server.RateLimit

/-! # The limiter is a sliding log

The reference keeps every admission for good and counts those in the window. The
limiter forgets what it prunes and what it sweeps, and decides the same. -/

namespace Loontail.Server

open Sliding

namespace Trail

/-- How many admissions of a key lie in the window that ends `now`. -/
def recent (trail : Trail) (key : IpAddr) (now window : Nat) : Nat :=
  (trail.admissions key).countP fun time => now < time + window ∧ time ≤ now

def admits (trail : Trail) (config : RateLimitConfig) (call : Attempt) : Bool :=
  trail.recent (limiterKey call.ip) call.now config.window < config.maxAttempts

def step (config : RateLimitConfig) (trail : Trail) (call : Attempt) : Trail :=
  trail.record call (trail.admits config call)

def reference (config : RateLimitConfig) (calls : List Attempt) : Trail :=
  calls.foldl (step config) empty

theorem reference_append (config : RateLimitConfig) (calls : List Attempt)
    (call : Attempt) :
    reference config (calls ++ [call]) = step config (reference config calls) call := by
  rw [reference, List.foldl_append]
  rfl

theorem past_record {trail : Trail} {call : Attempt} {admits : Bool}
    (past : ∀ admission ∈ trail.admitted, admission.time ≤ call.now) :
    ∀ admission ∈ (trail.record call admits).admitted, admission.time ≤ call.now := by
  intro admission member
  cases admits with
  | false => exact past admission (by simpa [record] using member)
  | true =>
      rcases List.mem_append.mp (show admission ∈ trail.admitted ++ _ from member) with
        before | new
      · exact past admission before
      · rw [List.mem_singleton.mp new]

theorem mem_admissions {trail : Trail} {key : IpAddr} {time : Nat}
    (member : time ∈ trail.admissions key) :
    ∃ admission ∈ trail.admitted, admission.time = time := by
  rcases List.mem_map.mp member with ⟨admission, among, rfl⟩
  exact ⟨admission, List.mem_of_mem_filter among, rfl⟩

theorem recent_eq_live {trail : Trail} {now window : Nat}
    (past : ∀ admission ∈ trail.admitted, admission.time ≤ now)
    (representable : window ≤ now) (key : IpAddr) :
    trail.recent key now window = Sliding.live (now - window) (trail.admissions key) := by
  rw [recent, Sliding.live]
  apply List.countP_congr
  intro time member
  rcases mem_admissions member with ⟨admission, among, rfl⟩
  have reached := past admission among
  simp only [decide_eq_true_eq]
  omega

end Trail

theorem cutoff_of_representable {config : RateLimitConfig} {now : Nat}
    (representable : config.window ≤ now) : config.cutoff now = now - config.window := by
  rw [RateLimitConfig.cutoff, checkedSub, if_pos representable, Option.getD_some]

/-- A sweep changes no count of a window that can still come. -/
theorem Buckets.live_sweepIfDue {buckets : Buckets} {clock now cutoff window later : Nat}
    (tidy : buckets.Tidy clock) (moved : cutoff ≤ later) (key : IpAddr) :
    Sliding.live later ((buckets.sweepIfDue now cutoff window).bucket key) =
      Sliding.live later (buckets.bucket key) := by
  by_cases kept : key ∈ (buckets.sweepIfDue now cutoff window).map
  · rcases Keyed.lookup_of_mem kept with ⟨hits, found⟩
    rw [bucket_of_lookup found, bucket_of_lookup (lookup_of_sweepIfDue found)]
  · rw [bucket_of_not_mem kept, live_nil]
    cases found : buckets.map.lookup key with
    | none => rw [bucket, found, Option.getD_none, live_nil]
    | some hits =>
        have stale := stale_of_sweepIfDue (tidy key hits found).ordered found kept
        rw [bucket_of_lookup found]
        exact (live_eq_zero fun hit member => le_trans (stale hit member) moved).symm

theorem Buckets.live_prepare {buckets : Buckets} {config : RateLimitConfig}
    {clock now later : Nat} (tidy : buckets.Tidy clock)
    (below : buckets.map.size < maxTrackedIps) (moved : config.cutoff now ≤ later)
    (touched key : IpAddr) :
    Sliding.live later ((buckets.prepare config touched now).bucket key) =
      Sliding.live later (buckets.bucket key) := by
  rw [prepare, makeRoom_of_lt (lt_of_le_of_lt size_sweepIfDue below)]
  exact live_sweepIfDue tidy moved key

/-- For every window that can still come, the buckets count what the log counts. -/
structure Follows (config : RateLimitConfig) (clock : Nat) (buckets : Buckets)
    (trail : Trail) : Prop where
  tidy : buckets.Tidy clock
  past : ∀ admission ∈ trail.admitted, admission.time ≤ clock
  counts : ∀ key later, clock ≤ later + config.window →
    Sliding.live later (buckets.bucket key) = Sliding.live later (trail.admissions key)

namespace Follows

variable {config : RateLimitConfig} {clock : Nat} {buckets : Buckets} {trail : Trail}

theorem start (config : RateLimitConfig) (clock : Nat) :
    Follows config clock .default .empty where
  tidy := .default
  past := by simp [Trail.empty]
  counts := by
    intro key later reaches
    rfl

theorem later {now : Nat} (follows : Follows config clock buckets trail)
    (passed : clock ≤ now) : Follows config now buckets trail where
  tidy := follows.tidy.later passed
  past := fun admission member => le_trans (follows.past admission member) passed
  counts := fun key later reaches => follows.counts key later (le_trans passed reaches)

theorem admits {call : Attempt} (follows : Follows config call.now buckets trail)
    (representable : config.window ≤ call.now)
    (below : buckets.map.size < maxTrackedIps) :
    (buckets.checkAt config call.ip call.now).1 = trail.admits config call := by
  have cut := cutoff_of_representable representable
  have ready : (buckets.prepare config (limiterKey call.ip) call.now).Tidy call.now :=
    follows.tidy.prepare
  have decision : (buckets.checkAt config call.ip call.now).1 = decide
      (Sliding.live (config.cutoff call.now) ((buckets.prepare config (limiterKey call.ip)
        call.now).bucket (limiterKey call.ip)) < config.maxAttempts) :=
    attempt_admits (ready.bucket _).ordered
  rw [decision, Buckets.live_prepare follows.tidy below le_rfl, cut,
    follows.counts _ _ (by omega), Trail.admits,
    Trail.recent_eq_live follows.past representable]

theorem checkAt {call : Attempt} (follows : Follows config call.now buckets trail)
    (representable : config.window ≤ call.now)
    (below : buckets.map.size < maxTrackedIps) :
    Follows config call.now (buckets.checkAt config call.ip call.now).2
      (trail.record call (buckets.checkAt config call.ip call.now).1) where
  tidy := follows.tidy.checkAt le_rfl call.ip
  past := Trail.past_record follows.past
  counts := by
    intro key later reaches
    have moved : config.cutoff call.now ≤ later := by
      rw [cutoff_of_representable representable]
      omega
    have before := Buckets.live_prepare follows.tidy below moved (limiterKey call.ip) key
    rw [follows.counts key later reaches] at before
    rw [Trail.admissions_record, live_append]
    by_cases same : key = limiterKey call.ip
    · subst same
      rw [Buckets.bucket_checkAt_self, live_attempt moved, before]
      congr 1
      have decision : (buckets.checkAt config call.ip call.now).1 =
          (attempt config.maxAttempts (config.cutoff call.now) call.now
            ((buckets.prepare config (limiterKey call.ip) call.now).bucket
              (limiterKey call.ip))).1 := rfl
      rw [← decision]
      cases (buckets.checkAt config call.ip call.now).1 <;> simp
    · rw [Buckets.bucket_checkAt_other same, before, if_neg (fun both => same both.2.symm),
        live_nil, Nat.add_zero]

end Follows

theorem follows_of_run {config : RateLimitConfig} {calls : List Attempt} {clock : Nat}
    (ordered : Ordered calls) (representable : ∀ call ∈ calls, config.window ≤ call.now)
    (few : (keysOf calls).length < maxTrackedIps)
    (past : ∀ call ∈ calls, call.now ≤ clock) :
    Follows config clock (Run.of config calls).buckets (Run.of config calls).trail ∧
      (Run.of config calls).trail = Trail.reference config calls := by
  induction calls using List.reverseRecOn generalizing clock with
  | nil => exact ⟨.start config clock, rfl⟩
  | append_singleton calls call induction =>
      rcases ordered_append.mp ordered with ⟨earlier, before⟩
      have fewer : (keysOf calls).length < maxTrackedIps :=
        lt_of_le_of_lt (length_keysOf_le fun one member =>
          ⟨one, List.mem_append_left _ member, rfl⟩) few
      have reached : call.now ≤ clock := past call (by simp)
      have fits : config.window ≤ call.now := representable call (by simp)
      rcases induction earlier (fun one member => representable one (by simp [member]))
        fewer before with ⟨follows, same⟩
      have below := lt_of_le_of_lt (size_of_run config calls) fewer
      rw [Run.of_append, Trail.reference_append, ← same]
      constructor
      · exact (follows.checkAt fits below).later reached
      · exact congrArg ((Run.of config calls).trail.record call) (follows.admits fits below)

/-- While fewer keys than the cap occur, and every window is representable, the
limiter admits what the reference admits and decides every call as it does:
neither sweeping nor pruning is ever noticed. -/
theorem limiter_is_sliding_log (config : RateLimitConfig) (calls : List Attempt)
    (ordered : Ordered calls) (representable : ∀ call ∈ calls, config.window ≤ call.now)
    (few : (keysOf calls).length < maxTrackedIps) :
    (Run.of config calls).trail = Trail.reference config calls := by
  induction calls using List.reverseRecOn with
  | nil => rfl
  | append_singleton calls call _ =>
      rcases ordered_append.mp ordered with ⟨_, before⟩
      have past : ∀ one ∈ calls ++ [call], one.now ≤ call.now := by
        intro one member
        rcases List.mem_append.mp member with earlier | last
        · exact before one earlier
        · rw [List.mem_singleton.mp last]
      exact (follows_of_run ordered representable few past).2

/-- Three attempts of one address against a budget of two, and a fourth when the
sweep of the second address has forgotten it. -/
def revisit : List Attempt :=
  [⟨.v4 1, 100⟩, ⟨.v4 1, 100⟩, ⟨.v4 1, 130⟩, ⟨.v4 2, 170⟩, ⟨.v4 1, 170⟩]

theorem limiter_is_sliding_log_revisit :
    (Run.of ⟨2, 60⟩ revisit).trail = Trail.reference ⟨2, 60⟩ revisit ∧
      (Trail.reference ⟨2, 60⟩ revisit).decisions = [true, true, false, true, true] :=
  ⟨limiter_is_sliding_log ⟨2, 60⟩ revisit (by decide) (by decide) (by decide),
    by decide⟩

end Loontail.Server
