import Loontail.Guarantees.SlidingLog

/-! # Whether clients are independent

An IPv4 client may reach the limiter under its own address or, through a
dual-stack listener or a forwarding header, under the IPv6 address that maps it.
Every mapped address has one and the same /64 prefix. -/

namespace Loontail.Server

open Sliding

def IpAddr.toIpv4 : IpAddr → Option (BitVec 32)
  | .v4 octets => some octets
  | .v6 octets =>
      if octets.extractLsb' 32 96 = 0xffff#96 then some (octets.extractLsb' 0 32) else none

/-- The IPv6 address `::ffff:a.b.c.d`. -/
def IpAddr.mapped (octets : BitVec 32) : IpAddr := .v6 (0xffff#96 ++ octets)

def byClient (client : BitVec 32) (call : Attempt) : Bool :=
  call.ip.toIpv4 = some client

def byOther (client : BitVec 32) (call : Attempt) : Bool :=
  call.ip.toIpv4.any (· ≠ client)

def decisionsOn (own : Attempt → Bool) (calls : List Attempt) (decisions : List Bool) :
    List Bool :=
  ((calls.zip decisions).filter fun decided => own decided.1).map (·.2)

def clientDecisions (config : RateLimitConfig) (client : BitVec 32)
    (calls : List Attempt) : List Bool :=
  decisionsOn (byClient client) calls (Run.of config calls).trail.decisions

/-- In clock order, with representable windows and fewer keys than the cap. -/
structure Legal (config : RateLimitConfig) (calls : List Attempt) : Prop where
  ordered : Ordered calls
  representable : ∀ call ∈ calls, config.window ≤ call.now
  few : (keysOf calls).length < maxTrackedIps

/-- Whatever other IPv4 addresses attempt, the client with these attempts is
decided upon in the same way. -/
def Independent (config : RateLimitConfig) (client : BitVec 32) (own : List Attempt) :
    Prop :=
  ∀ first second, Legal config first → Legal config second →
    first.filter (byClient client) = own →
    first.filter (!byOther client ·) = second.filter (!byOther client ·) →
    clientDecisions config client first = clientDecisions config client second

/-! ## Addresses -/

theorem toIpv4_mapped (octets : BitVec 32) : (IpAddr.mapped octets).toIpv4 = some octets := by
  rw [IpAddr.mapped, IpAddr.toIpv4, if_pos BitVec.extractLsb'_append_eq_left,
    BitVec.extractLsb'_append_eq_right]

/-- The key of an IPv4 client is its own address, or the one all mapped addresses share. -/
theorem key_of_client {ip : IpAddr} {octets : BitVec 32} (stands : ip.toIpv4 = some octets) :
    ip = .v4 octets ∨ limiterKey ip = .v6 0#128 := by
  cases ip with
  | v4 own =>
      rw [Option.some.inj stands]
      exact .inl rfl
  | v6 wide =>
      rw [IpAddr.toIpv4] at stands
      split at stands
      · rename_i mapped
        have nested : wide.extractLsb' 64 64 = (wide.extractLsb' 32 96).extractLsb' 32 64 := by
          apply BitVec.eq_of_getLsbD_eq
          intro index within
          have reach : 32 + index < 96 := by omega
          simp only [BitVec.getLsbD_extractLsb', within, reach, decide_true, Bool.true_and]
          congr 1
          omega
        right
        rw [limiterKey, nested, mapped]
        decide
      · cases stands

/-! ## The reference, call by call -/

namespace Trail

variable {config : RateLimitConfig} {calls : List Attempt}

theorem length_decisions (config : RateLimitConfig) (calls : List Attempt) :
    (reference config calls).decisions.length = calls.length := by
  induction calls using List.reverseRecOn with
  | nil => rfl
  | append_singleton calls call induction =>
      rw [reference_append]
      simp [step, record, induction]

def seen (config : RateLimitConfig) (own : Attempt → Bool) (calls : List Attempt) :
    List Bool :=
  decisionsOn own calls (reference config calls).decisions

theorem seen_append (config : RateLimitConfig) (own : Attempt → Bool)
    (calls : List Attempt) (call : Attempt) :
    seen config own (calls ++ [call]) = seen config own calls ++
      if own call then [(reference config calls).admits config call] else [] := by
  rw [seen, reference_append, step, record, decisionsOn,
    List.zip_append (length_decisions config calls).symm, List.filter_append,
    List.map_append]
  congr 1
  by_cases mine : own call <;> simp [mine]

theorem seen_extends (config : RateLimitConfig) (own : Attempt → Bool)
    (calls more : List Attempt) :
    ∃ later, seen config own (calls ++ more) = seen config own calls ++ later := by
  induction more using List.reverseRecOn with
  | nil => exact ⟨[], by simp⟩
  | append_singleton more call induction =>
      rcases induction with ⟨later, equal⟩
      rw [← List.append_assoc, seen_append, equal, List.append_assoc]
      exact ⟨_, rfl⟩

theorem seen_of_others {own : Attempt → Bool} {more : List Attempt}
    (others : ∀ call ∈ more, own call = false) :
    seen config own (calls ++ more) = seen config own calls := by
  induction more using List.reverseRecOn with
  | nil => rw [List.append_nil]
  | append_singleton more call induction =>
      rw [← List.append_assoc, seen_append, others call (by simp), if_neg Bool.false_ne_true,
        List.append_nil]
      exact induction fun one member => others one (by simp [member])

theorem admits_congr {left right : Trail} {call : Attempt}
    (same : left.admissions (limiterKey call.ip) = right.admissions (limiterKey call.ip)) :
    left.admits config call = right.admits config call := by
  rw [admits, admits, recent, recent, same]

/-- Calls that have a key for themselves are decided as if no other were made. -/
theorem seen_of_apart {own : Attempt → Bool} {key : IpAddr}
    (apart : ∀ call ∈ calls, own call = true ↔ limiterKey call.ip = key) :
    seen config own calls = (reference config (calls.filter own)).decisions ∧
      (reference config calls).admissions key =
        (reference config (calls.filter own)).admissions key := by
  induction calls using List.reverseRecOn with
  | nil => exact ⟨rfl, rfl⟩
  | append_singleton calls call induction =>
      rcases induction fun one member => apart one (by simp [member]) with ⟨decided, logged⟩
      have last := apart call (by simp)
      rw [seen_append, List.filter_append, reference_append, step, admissions_record, logged,
        decided]
      by_cases mine : own call = true
      · have keyed := last.mp mine
        have same : (reference config calls).admits config call =
            (reference config (calls.filter own)).admits config call :=
          admits_congr (by rw [keyed, logged])
        rw [List.filter_cons_of_pos mine, List.filter_nil, if_pos mine, reference_append,
          step, admissions_record, same]
        exact ⟨rfl, rfl⟩
      · have unkeyed : limiterKey call.ip ≠ key := fun equal => mine (last.mpr equal)
        rw [List.filter_cons_of_neg mine, List.filter_nil, if_neg mine, List.append_nil,
          if_neg fun both => unkeyed both.2, List.append_nil, List.append_nil]
        exact ⟨rfl, rfl⟩

/-- Without a budget or without a window the log does not matter. -/
theorem seen_of_idle {own : Attempt → Bool}
    (idle : config.maxAttempts = 0 ∨ config.window = 0) :
    seen config own calls =
      (calls.filter own).map fun _ => decide (0 < config.maxAttempts) := by
  induction calls using List.reverseRecOn with
  | nil => rfl
  | append_singleton calls call induction =>
      have decision : (reference config calls).admits config call =
          decide (0 < config.maxAttempts) := by
        rw [admits]
        rcases idle with none | instant
        · simp [none]
        · have empty : (reference config calls).recent (limiterKey call.ip) call.now
              config.window = 0 := by
            rw [recent, instant, List.countP_eq_zero]
            intro time member
            simp only [decide_eq_true_eq]
            omega
          rw [empty]
      rw [seen_append, induction, List.filter_append, List.map_append, decision]
      by_cases mine : own call = true
      · rw [if_pos mine, List.filter_cons_of_pos mine]
        rfl
      · rw [if_neg mine, List.filter_cons_of_neg mine]
        rfl

theorem admissions_of_untouched {key : IpAddr}
    (untouched : ∀ call ∈ calls, limiterKey call.ip ≠ key) :
    (reference config calls).admissions key = [] := by
  induction calls using List.reverseRecOn with
  | nil => rfl
  | append_singleton calls call induction =>
      rw [reference_append, step, admissions_record,
        induction fun one member => untouched one (by simp [member]),
        if_neg fun both => untouched call (by simp) both.2]
      rfl

/-- A budget that is left is spent by attempts made all at once. -/
theorem admissions_burst {call : Attempt}
    (fresh : (reference config calls).admissions (limiterKey call.ip) = [])
    {count : Nat} (within : count ≤ config.maxAttempts) :
    (reference config (calls ++ List.replicate count call)).admissions
      (limiterKey call.ip) = List.replicate count call.now := by
  induction count with
  | zero => simpa using fresh
  | succ count induction =>
      have spent := induction (by omega)
      have admitted : (reference config (calls ++ List.replicate count call)).admits config
          call = true := by
        rw [admits, recent, spent, List.countP_replicate]
        split <;> simp <;> omega
      rw [List.replicate_succ', ← List.append_assoc, reference_append, step,
        admissions_record, spent, admitted, if_pos ⟨rfl, rfl⟩, ← List.replicate_succ']

end Trail

theorem clientDecisions_eq {config : RateLimitConfig} {calls : List Attempt}
    (legal : Legal config calls) (client : BitVec 32) :
    clientDecisions config client calls = Trail.seen config (byClient client) calls := by
  rw [clientDecisions, Trail.seen,
    limiter_is_sliding_log config calls legal.ordered legal.representable legal.few]

theorem not_byOther {client : BitVec 32} {call : Attempt}
    (own : byClient client call = true) : byOther client call = false := by
  rw [byClient, decide_eq_true_eq] at own
  simp [byOther, own]

theorem filter_byClient (client : BitVec 32) (calls : List Attempt) :
    (calls.filter (!byOther client ·)).filter (byClient client) =
      calls.filter (byClient client) := by
  rw [List.filter_filter]
  apply List.filter_congr
  intro call _
  cases own : byClient client call with
  | false => rfl
  | true => rw [not_byOther own]; rfl

theorem independent_of {config : RateLimitConfig} {client : BitVec 32}
    {own : List Attempt}
    (safe : config.maxAttempts = 0 ∨ config.window = 0 ∨
      ∀ call ∈ own, call.ip = .v4 client) : Independent config client own := by
  intro first second legalFirst legalSecond mine shared
  have same : second.filter (byClient client) = own := by
    rw [← filter_byClient, ← shared, filter_byClient, mine]
  rw [clientDecisions_eq legalFirst, clientDecisions_eq legalSecond]
  rw [← or_assoc] at safe
  rcases safe with idle | plain
  · rw [Trail.seen_of_idle idle, Trail.seen_of_idle idle, mine, same]
  · -- nobody else has the key of an IPv4 address
    have apart : ∀ calls : List Attempt, calls.filter (byClient client) = own →
        ∀ call ∈ calls,
          byClient client call = true ↔ limiterKey call.ip = .v4 client := by
      intro calls filtered call member
      constructor
      · intro isOwn
        have among : call ∈ own := by
          rw [← filtered]
          exact List.mem_filter.mpr ⟨member, isOwn⟩
        rw [plain call among, limiterKey]
      · intro keyed
        cases address : call.ip with
        | v4 octets =>
            rw [address, limiterKey] at keyed
            cases keyed
            simp [byClient, address, IpAddr.toIpv4]
        | v6 octets =>
            rw [address, limiterKey] at keyed
            cases keyed
    rw [(Trail.seen_of_apart (apart first mine)).1, (Trail.seen_of_apart (apart second same)).1,
      mine, same]

theorem keysOf_client {client : BitVec 32} {calls : List Attempt}
    (keyed : ∀ call ∈ calls, limiterKey call.ip = .v4 client ∨
      limiterKey call.ip = .v6 0#128) : (keysOf calls).length < maxTrackedIps := by
  have touched : (keysOf calls).length ≤
      (keysOf [⟨.v4 client, 0⟩, ⟨.v6 0#128, 0⟩]).length := by
    apply length_keysOf_le
    intro call member
    rcases keyed call member with plain | wide
    · exact ⟨⟨.v4 client, 0⟩, by simp, plain.symm⟩
    · exact ⟨⟨.v6 0#128, 0⟩, by simp, wide.symm ▸ by decide⟩
  have two : (keysOf [⟨.v4 client, 0⟩, ⟨.v6 0#128, 0⟩]).length ≤ 2 :=
    (List.dedup_sublist _).length_le
  have cap : 2 < maxTrackedIps := by decide
  omega

/-- Attempts of a stranger, as many as the budget, right before a call. -/
def crowded (config : RateLimitConfig) (client : BitVec 32) (before : List Attempt)
    (call : Attempt) (after : List Attempt) : List Attempt :=
  before ++ List.replicate config.maxAttempts ⟨.mapped (client + 1), call.now⟩ ++ call :: after

theorem key_mapped (octets : BitVec 32) : limiterKey (.mapped octets) = .v6 0#128 := by
  rcases key_of_client (toIpv4_mapped octets) with plain | wide
  · cases plain
  · exact wide

section Crowd

variable {config : RateLimitConfig} {client : BitVec 32} {before after : List Attempt}
  {call : Attempt}

theorem stranger_byClient (client : BitVec 32) (now : Nat) :
    byClient client ⟨.mapped (client + 1), now⟩ = false := by
  rw [byClient, toIpv4_mapped, decide_eq_false_iff_not]
  intro same
  have equal := Option.some.inj same
  bv_omega

theorem stranger_byOther (client : BitVec 32) (now : Nat) :
    byOther client ⟨.mapped (client + 1), now⟩ = true := by
  have apart := stranger_byClient client now
  rw [byClient, toIpv4_mapped, decide_eq_false_iff_not] at apart
  rw [byOther, toIpv4_mapped, Option.any_some]
  exact decide_eq_true fun same => apart (congrArg some same)

theorem mem_crowded {one : Attempt} (member : one ∈ crowded config client before call after) :
    one ∈ before ++ call :: after ∨ one = ⟨.mapped (client + 1), call.now⟩ := by
  rcases List.mem_append.mp member with early | late
  · rcases List.mem_append.mp early with early | stranger
    · exact .inl (List.mem_append_left _ early)
    · exact .inr (List.eq_of_mem_replicate stranger)
  · exact .inl (List.mem_append_right _ late)

theorem filter_crowded {keep : Attempt → Bool}
    (drops : keep ⟨.mapped (client + 1), call.now⟩ = false) :
    (crowded config client before call after).filter keep =
      (before ++ call :: after).filter keep := by
  rw [crowded, List.filter_append, List.filter_append, List.filter_append,
    List.filter_replicate, if_neg (by rw [drops]; exact Bool.false_ne_true), List.append_nil]

theorem ordered_crowded (ordered : Ordered (before ++ call :: after)) :
    Ordered (crowded config client before call after) := by
  rw [Ordered, List.pairwise_append, List.pairwise_cons] at ordered
  rcases ordered with ⟨early, ⟨next, late⟩, between⟩
  rw [crowded, Ordered, List.pairwise_append, List.pairwise_append, List.pairwise_cons]
  refine ⟨⟨early, ?_, ?_⟩, ⟨next, late⟩, ?_⟩
  · exact List.pairwise_replicate.mpr (.inr le_rfl)
  · intro one member stranger isStranger
    rw [List.eq_of_mem_replicate isStranger]
    exact between one member call (by simp)
  · intro one member two later
    rcases List.mem_append.mp member with isEarly | isStranger
    · exact between one isEarly two later
    · rw [List.eq_of_mem_replicate isStranger]
      rcases List.mem_cons.mp later with rfl | isLate
      · exact le_rfl
      · exact next two isLate

theorem legal_crowded (ordered : Ordered (before ++ call :: after))
    (representable : ∀ one ∈ before ++ call :: after, config.window ≤ one.now)
    (mine : ∀ one ∈ before ++ call :: after, byClient client one = true) :
    Legal config (before ++ call :: after) ∧
      Legal config (crowded config client before call after) := by
  have keyed : ∀ one ∈ before ++ call :: after,
      limiterKey one.ip = .v4 client ∨ limiterKey one.ip = .v6 0#128 := by
    intro one member
    rcases key_of_client (of_decide_eq_true (mine one member)) with plain | wide
    · exact .inl (by rw [plain, limiterKey])
    · exact .inr wide
  refine ⟨⟨ordered, representable, keysOf_client keyed⟩, ordered_crowded ordered, ?_, ?_⟩
  · intro one member
    rcases mem_crowded member with known | rfl
    · exact representable one known
    · exact representable call (by simp)
  · have keyedToo : ∀ one ∈ crowded config client before call after,
        limiterKey one.ip = .v4 client ∨ limiterKey one.ip = .v6 0#128 := by
      intro one member
      rcases mem_crowded member with known | rfl
      · exact keyed one known
      · exact .inr (key_mapped _)
    exact keysOf_client keyedToo

/-- The first mapped call of a client is admitted, unless it is crowded. -/
theorem not_independent (live : config.window ≠ 0) (budget : config.maxAttempts ≠ 0)
    (plain : ∀ one ∈ before, one.ip = .v4 client) (shares : call.ip ≠ .v4 client)
    (ordered : Ordered (before ++ call :: after))
    (representable : ∀ one ∈ before ++ call :: after, config.window ≤ one.now)
    (mine : ∀ one ∈ before ++ call :: after, byClient client one = true) :
    ¬Independent config client (before ++ call :: after) := by
  intro independent
  have isOwn : byClient client call = true := mine call (by simp)
  have keyed : limiterKey call.ip = .v6 0#128 :=
    (key_of_client (of_decide_eq_true isOwn)).resolve_left shares
  have untouched : ∀ one ∈ before, limiterKey one.ip ≠ .v6 0#128 := by
    intro one member
    rw [plain one member, limiterKey]
    exact nofun
  rcases legal_crowded ordered representable mine with ⟨alone, crowd⟩
  have equal := independent _ _ alone crowd (List.filter_eq_self.mpr mine)
    (filter_crowded (by rw [stranger_byOther]; rfl)).symm
  rw [clientDecisions_eq alone, clientDecisions_eq crowd] at equal
  have fresh : (Trail.reference config before).admissions (.v6 0#128) = [] :=
    Trail.admissions_of_untouched untouched
  have admitted : (Trail.reference config before).admits config call = true := by
    rw [Trail.admits, Trail.recent, keyed, fresh]
    exact decide_eq_true (Nat.pos_of_ne_zero budget)
  have refused : (Trail.reference config (before ++ List.replicate config.maxAttempts
      ⟨.mapped (client + 1), call.now⟩)).admits config call = false := by
    have spent : (Trail.reference config (before ++ List.replicate config.maxAttempts
        ⟨.mapped (client + 1), call.now⟩)).admissions (limiterKey (.mapped (client + 1))) =
          List.replicate config.maxAttempts call.now :=
      Trail.admissions_burst (by rw [key_mapped]; exact fresh) le_rfl
    rw [key_mapped] at spent
    have inside : call.now < call.now + config.window := by omega
    rw [Trail.admits, Trail.recent, keyed, spent, List.countP_replicate,
      if_pos (by simp [inside])]
    simp
  have skipped : Trail.seen config (byClient client) (before ++ List.replicate
      config.maxAttempts ⟨.mapped (client + 1), call.now⟩) =
        Trail.seen config (byClient client) before := by
    apply Trail.seen_of_others
    intro stranger member
    rw [List.eq_of_mem_replicate member]
    exact stranger_byClient client call.now
  rcases Trail.seen_extends config (byClient client) (before ++ [call]) after with
    ⟨later, one⟩
  rcases Trail.seen_extends config (byClient client) (before ++ List.replicate
    config.maxAttempts ⟨.mapped (client + 1), call.now⟩ ++ [call]) after with ⟨other, two⟩
  rw [Trail.seen_append, if_pos isOwn, admitted, List.append_assoc before,
    List.append_assoc _ [true], List.singleton_append, List.singleton_append] at one
  rw [Trail.seen_append, if_pos isOwn, refused, skipped, List.append_assoc _ [call],
    List.append_assoc _ [false], List.singleton_append, List.singleton_append] at two
  rw [crowded, one, two, List.append_cancel_left_eq] at equal
  cases equal

end Crowd

/-- A client is independent of other IPv4 addresses exactly when there is no budget
or no window to share, or it never comes under its mapped address. -/
theorem client_independent_iff (config : RateLimitConfig) (client : BitVec 32)
    (own : List Attempt) (ordered : Ordered own)
    (representable : ∀ call ∈ own, config.window ≤ call.now)
    (mine : ∀ call ∈ own, byClient client call = true) :
    Independent config client own ↔
      config.maxAttempts = 0 ∨ config.window = 0 ∨ ∀ call ∈ own, call.ip = .v4 client := by
  constructor
  · intro independent
    by_contra exposed
    simp only [not_or] at exposed
    rcases exposed with ⟨budget, live, shares⟩
    cases first : own.find? fun call => call.ip ≠ .v4 client with
    | none =>
        apply shares
        intro call member
        simpa using List.find?_eq_none.mp first call member
    | some call =>
        rcases List.find?_eq_some_iff_append.mp first with ⟨mapped, before, after, rfl, plain⟩
        refine not_independent live budget ?_ (by simpa using mapped) ordered representable
          mine independent
        intro one member
        simpa using plain one member
  · exact independent_of

theorem client_independent_iff_plain :
    Independent ⟨10, 60⟩ 0x0a000001#32 [⟨.v4 0x0a000001#32, 100⟩] :=
  (client_independent_iff ⟨10, 60⟩ 0x0a000001#32 [⟨.v4 0x0a000001#32, 100⟩]
    (by decide) (by decide) (by decide)).mpr (.inr (.inr (by decide)))

/-- Ten attempts of 10.0.0.2 through a dual-stack listener, and 10.0.0.1 is refused
its first. -/
theorem mapped_clients_share_a_budget :
    clientDecisions ⟨10, 60⟩ 0x0a000001#32 [⟨.mapped 0x0a000001#32, 100⟩] = [true] ∧
      clientDecisions ⟨10, 60⟩ 0x0a000001#32
        (List.replicate 10 ⟨.mapped 0x0a000002#32, 100⟩ ++
          [⟨.mapped 0x0a000001#32, 100⟩]) = [false] ∧
      ¬Independent ⟨10, 60⟩ 0x0a000001#32 [⟨.mapped 0x0a000001#32, 100⟩] := by
  refine ⟨by decide +kernel, by decide +kernel, ?_⟩
  exact @not_independent _ _ [] [] _ (by decide) (by decide) (by simp)
    (by decide) (by decide) (by decide) (by decide)

end Loontail.Server
