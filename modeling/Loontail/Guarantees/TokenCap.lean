import Loontail.Accounts.TokenCalls
import Loontail.Guarantees.SingleSuccessor

/-! # The cap on token pairs

A user holds the newest of the pairs that were issued to them and not removed.
What is missing was evicted, at a time when the cap was full of newer ones. -/

namespace Loontail.Accounts

open Concurrency Relational Fallible

/-- The token table beside the ledger of a history: nothing is held that is not on
the ledger, and what is on the ledger and not held was displaced by newer pairs. -/
structure Standing (max : Int) (service : Service) (history : List (Event accounts)) :
    Prop where
  held : ∀ token ∈ service.database.yggdrasilTokens.rows, token ∈ tokenLedger history
  ordered : (tokenLedger history).Pairwise fun newer older => older.issuedAt < newer.issuedAt
  timed : ∀ token ∈ tokenLedger history, token.issuedAt ∈ history.filterMap issueTime
  older : ∀ token ∈ tokenLedger history, token ∉ service.database.yggdrasilTokens.rows →
    ∀ kept ∈ service.database.yggdrasilTokens.rows, kept.userId = token.userId →
      token.issuedAt < kept.issuedAt
  displaced : ∀ token ∈ tokenLedger history,
    token ∉ service.database.yggdrasilTokens.rows →
      ∃ event ∈ history, displaces max token event

theorem IssuesIncrease.tail {event : Event accounts} {history : List (Event accounts)}
    (increase : IssuesIncrease (event :: history)) : IssuesIncrease history := by
  rw [IssuesIncrease, List.filterMap_cons] at increase
  split at increase
  · exact increase
  · exact (List.pairwise_cons.mp increase).2

namespace Standing

variable {max : Int} {service : Service} {history : List (Event accounts)}

theorem start (database : Database) (clock : Timestamp)
    (fresh : database.yggdrasilTokens.rows = []) : Standing max (.boot database clock) [] where
  held := by
    intro token member
    rw [Service.boot, fresh] at member
    cases member
  ordered := .nil
  timed := by
    intro token member
    cases member
  older := by
    intro token member
    cases member
  displaced := by
    intro token member
    cases member

theorem distinct (standing : Standing max service history) :
    ((tokenLedger history).map (·.issuedAt)).Nodup := by
  rw [List.Nodup, List.pairwise_map]
  exact standing.ordered.imp fun older same => absurd same (ne_of_gt older)

theorem eq_of_issuedAt (standing : Standing max service history) {left right : YggdrasilToken}
    (leftMem : left ∈ tokenLedger history) (rightMem : right ∈ tokenLedger history)
    (same : left.issuedAt = right.issuedAt) : left = right :=
  List.inj_on_of_nodup_map standing.distinct leftMem rightMem same

theorem quiet (standing : Standing max service history) {after : Service}
    {event : Event accounts} (ledger : ledgerAfter event (tokenLedger history) =
      tokenLedger history)
    (rows : after.database.yggdrasilTokens.rows = service.database.yggdrasilTokens.rows) :
    Standing max after (event :: history) := by
  have same : tokenLedger (event :: history) = tokenLedger history := ledger
  constructor
  · rw [rows, same]
    exact standing.held
  · rw [same]
    exact standing.ordered
  · rw [same]
    intro token member
    rw [List.filterMap_cons]
    split
    · exact standing.timed token member
    · exact .tail _ (standing.timed token member)
  · rw [rows, same]
    exact standing.older
  · rw [rows, same]
    intro token member gone
    rcases standing.displaced token member gone with ⟨event, among, displaced⟩
    exact ⟨event, .tail _ among, displaced⟩

theorem delete (standing : Standing max service history) {after : Service}
    {event : Event accounts} {selected : YggdrasilToken → Bool}
    (ledger : ledgerAfter event (tokenLedger history) =
      (tokenLedger history).filter fun token => !selected token)
    (rows : after.database.yggdrasilTokens.rows =
      service.database.yggdrasilTokens.rows.filter fun token => !selected token) :
    Standing max after (event :: history) := by
  have left : tokenLedger (event :: history) =
      (tokenLedger history).filter fun token => !selected token := ledger
  have missing : ∀ token ∈ tokenLedger (event :: history),
      token ∉ after.database.yggdrasilTokens.rows →
        token ∈ tokenLedger history ∧ token ∉ service.database.yggdrasilTokens.rows := by
    intro token member gone
    rw [left, List.mem_filter] at member
    rw [rows, List.mem_filter] at gone
    exact ⟨member.1, fun present => gone ⟨present, member.2⟩⟩
  constructor
  · rw [rows, left]
    intro token member
    rw [List.mem_filter] at member ⊢
    exact ⟨standing.held token member.1, member.2⟩
  · rw [left]
    exact standing.ordered.sublist List.filter_sublist
  · rw [left]
    intro token member
    have timed := standing.timed token (List.mem_of_mem_filter member)
    rw [List.filterMap_cons]
    split
    · exact timed
    · exact .tail _ timed
  · intro token member gone kept present
    rcases missing token member gone with ⟨onLedger, absent⟩
    rw [rows] at present
    exact standing.older token onLedger absent kept (List.mem_of_mem_filter present)
  · intro token member gone
    rcases missing token member gone with ⟨onLedger, absent⟩
    rcases standing.displaced token onLedger absent with ⟨event, among, displaced⟩
    exact ⟨event, .tail _ among, displaced⟩

theorem insert (standing : Standing max service history) {after : Service}
    {event : Event accounts} {token : YggdrasilToken}
    (ledger : ledgerAfter event (tokenLedger history) = token :: tokenLedger history)
    (time : issueTime event = some token.issuedAt)
    (rows : after.database.yggdrasilTokens.rows =
      token :: service.database.yggdrasilTokens.rows)
    (increase : IssuesIncrease (event :: history)) : Standing max after (event :: history) := by
  have joined : tokenLedger (event :: history) = token :: tokenLedger history := ledger
  have times : (event :: history).filterMap issueTime =
      token.issuedAt :: history.filterMap issueTime := List.filterMap_cons_some time
  rw [IssuesIncrease, times, List.pairwise_cons] at increase
  have newest : ∀ other ∈ tokenLedger history, other.issuedAt < token.issuedAt :=
    fun other member => increase.1 _ (standing.timed other member)
  have missing : ∀ other ∈ tokenLedger (event :: history),
      other ∉ after.database.yggdrasilTokens.rows →
        other ∈ tokenLedger history ∧ other ∉ service.database.yggdrasilTokens.rows := by
    intro other member gone
    rw [rows, List.mem_cons, not_or] at gone
    rw [joined, List.mem_cons] at member
    exact ⟨member.resolve_left gone.1, gone.2⟩
  constructor
  · rw [rows, joined]
    intro other member
    rcases List.mem_cons.mp member with rfl | before
    · exact .head _
    · exact .tail _ (standing.held other before)
  · rw [joined, List.pairwise_cons]
    exact ⟨newest, standing.ordered⟩
  · rw [joined, times]
    intro other member
    rcases List.mem_cons.mp member with rfl | before
    · exact .head _
    · exact .tail _ (standing.timed other before)
  · intro other member gone kept present owner
    rcases missing other member gone with ⟨onLedger, absent⟩
    rw [rows] at present
    rcases List.mem_cons.mp present with rfl | before
    · exact newest other onLedger
    · exact standing.older other onLedger absent kept before owner
  · intro other member gone
    rcases missing other member gone with ⟨onLedger, absent⟩
    rcases standing.displaced other onLedger absent with ⟨event, among, displaced⟩
    exact ⟨event, .tail _ among, displaced⟩

/-- Since no two pairs are equally old, being beyond the cap is a matter of issue times. -/
theorem beyondCap_iff (standing : Standing max service history) {userId : Uuid}
    {token : YggdrasilToken} (member : token ∈ service.database.yggdrasilTokens.rows) :
    Sql.beyondCap userId max service.database token = true ↔ token.userId = userId ∧
      max ≤ newerThan (·.issuedAt) (service.database.tokensOf userId) token := by
  have counted : (service.database.yggdrasilTokens.rows.countP fun other =>
      other.userId = userId && Sql.newer other token) =
        newerThan (·.issuedAt) (service.database.tokensOf userId) token := by
    rw [newerThan, Database.tokensOf, List.countP_filter]
    apply List.countP_congr
    intro other among
    rw [Sql.newer, Bool.and_comm]
    by_cases same : other.issuedAt = token.issuedAt
    · have equal := standing.eq_of_issuedAt (standing.held other among)
        (standing.held token member) same
      subst equal
      simp
    · simp [same]
  rw [Sql.beyondCap, counted]
  simp

theorem tokensOf_evict (standing : Standing max service history) {after : Database}
    {userId : Uuid}
    (rows : after.yggdrasilTokens.rows = service.database.yggdrasilTokens.rows.filter
      fun token => !Sql.beyondCap userId max service.database token) (other : Uuid) :
    after.tokensOf other =
      if other = userId then
        capped (·.issuedAt) max.toNat (service.database.tokensOf userId)
      else service.database.tokensOf other := by
  split
  · rename_i same
    subst same
    rw [Database.tokensOf, rows, capped]
    conv_rhs => rw [Database.tokensOf]
    rw [List.filter_filter, List.filter_filter]
    apply List.filter_congr
    intro token member
    by_cases owner : token.userId = other
    · have beyond := @beyondCap_iff max service history standing other token member
      rw [← Database.tokensOf]
      by_cases exceeds : Sql.beyondCap other max service.database token = true
      · have far := (beyond.mp exceeds).2
        simp only [exceeds, owner]
        simp
        omega
      · have near : ¬max ≤ newerThan (·.issuedAt) (service.database.tokensOf other) token :=
          fun far => exceeds (beyond.mpr ⟨owner, far⟩)
        simp only [exceeds, owner]
        simp
        omega
    · simp [owner]
  · rename_i different
    rw [Database.tokensOf, Database.tokensOf, rows, List.filter_filter]
    apply List.filter_congr
    intro token member
    by_cases owner : token.userId = other
    · have near : Sql.beyondCap userId max service.database token = false := by
        rw [Sql.beyondCap, owner, decide_eq_false different, Bool.false_and]
      simp [near]
    · simp [owner]

theorem evict (standing : Standing max service history) {after : Service} {index : Nat}
    {userId : Uuid} {result : Operation.Result (.statement (.evictTokens userId max))}
    (rows : after.database.yggdrasilTokens.rows =
      service.database.yggdrasilTokens.rows.filter
        fun token => !Sql.beyondCap userId max service.database token) :
    Standing max after
      (⟨index, service, .statement (.evictTokens userId max), result, after⟩ :: history) := by
  have missing : ∀ token ∈ tokenLedger history,
      token ∉ after.database.yggdrasilTokens.rows →
        token ∉ service.database.yggdrasilTokens.rows ∨
        (token ∈ service.database.yggdrasilTokens.rows ∧ token.userId = userId ∧
          max ≤ newerThan (·.issuedAt) (service.database.tokensOf userId) token) := by
    intro token member gone
    by_cases present : token ∈ service.database.yggdrasilTokens.rows
    · right
      refine ⟨present, (standing.beyondCap_iff present).mp ?_⟩
      by_contra near
      rw [rows, List.mem_filter] at gone
      exact gone ⟨present, by simpa using near⟩
    · exact .inl present
  constructor
  · rw [rows]
    intro token member
    exact standing.held token (List.mem_of_mem_filter member)
  · exact standing.ordered
  · intro token member
    exact standing.timed token member
  · intro token member gone kept present owner
    rw [rows, List.mem_filter] at present
    rcases missing token member gone with absent | ⟨_, owned, beyond⟩
    · exact standing.older token member absent kept present.1 owner
    · have within : ¬max ≤
          newerThan (·.issuedAt) (service.database.tokensOf userId) kept := by
        intro exceeds
        rw [(standing.beyondCap_iff present.1).mpr ⟨owner.trans owned, exceeds⟩] at present
        exact absurd present.2 (by simp)
      have full : max.toNat ≤
          newerThan (·.issuedAt) (service.database.tokensOf userId) token := by omega
      have near : newerThan (·.issuedAt) (service.database.tokensOf userId) kept <
          max.toNat := by omega
      exact older_of_beyond full near
  · intro token member gone
    rcases missing token member gone with absent | ⟨_, owned, beyond⟩
    · rcases standing.displaced token member absent with ⟨event, among, displaced⟩
      exact ⟨event, .tail _ among, displaced⟩
    · refine ⟨_, .head _, owned.symm, ?_⟩
      rw [newerThan, Database.tokensOf, List.countP_filter] at beyond
      subst owned
      simpa only [Bool.and_comm] using beyond

end Standing

/-! ## What a call keeps -/

section Calls

variable {state : AppState} {index : Nat} {service : Service}
  {history : List (Event accounts)}

/-- While issue times increase: the table stands beside the ledger, and no user
holds more pairs than the cap, `extra` ones apart. -/
def Kept (state : AppState) (extra : Uuid → Nat) (moment : Service × List (Event accounts)) :
    Prop :=
  IssuesIncrease moment.2 →
    Standing state.config.maxTokensPerUser moment.1 moment.2 ∧
    ∀ userId, (moment.1.database.tokensOf userId).length ≤
      state.config.maxTokensPerUser.toNat + extra userId

abbrev Within (state : AppState) : Service × List (Event accounts) → Prop :=
  Kept state fun _ => 0

theorem Kept.quiet {extra : Uuid → Nat} (kept : Kept state extra (service, history))
    {after : Service} {event : Event accounts}
    (ledger : ledgerAfter event (tokenLedger history) = tokenLedger history)
    (rows : after.database.yggdrasilTokens.rows = service.database.yggdrasilTokens.rows) :
    Kept state extra (after, event :: history) := by
  intro increase
  rcases kept increase.tail with ⟨standing, bounded⟩
  refine ⟨standing.quiet ledger rows, ?_⟩
  intro userId
  rw [Database.tokensOf, rows]
  exact bounded userId

theorem Kept.delete (kept : Within state (service, history)) {after : Service}
    {event : Event accounts} {selected : YggdrasilToken → Bool}
    (ledger : ledgerAfter event (tokenLedger history) =
      (tokenLedger history).filter fun token => !selected token)
    (rows : after.database.yggdrasilTokens.rows =
      service.database.yggdrasilTokens.rows.filter fun token => !selected token) :
    Within state (after, event :: history) := by
  intro increase
  rcases kept increase.tail with ⟨standing, bounded⟩
  refine ⟨standing.delete ledger rows, ?_⟩
  intro userId
  rw [Database.tokensOf, rows]
  exact le_trans (List.filter_sublist.filter _).length_le (bounded userId)

def Holds (state : AppState) (database : Database) (userId : Uuid)
    (tokens : Credentials.YggdrasilTokens) : Prop :=
  ∃ token ∈ database.tokensOf userId,
    token.accessTokenHash = state.hashToken tokens.accessToken ∧
      token.clientToken = tokens.clientToken

theorem Kept.insert {userId : Uuid} {accessTokenHash clientToken : String}
    {expiresAt : Timestamp} {database : Database} {reply : Unit}
    (within : Within state (service, history))
    (executed : Sql.insertToken service.clock userId accessTokenHash clientToken expiresAt
      service.database = .ok (reply, database)) :
    let event : Event accounts := ⟨index, service, .statement (.insertToken userId
      accessTokenHash clientToken expiresAt), .ok reply, { service with database }⟩
    Kept state (fun other => if other = userId then 1 else 0)
        ({ service with database }, event :: history) ∧
      (IssuesIncrease (event :: history) →
        (⟨userId, accessTokenHash, clientToken, service.clock, expiresAt⟩ : YggdrasilToken) ∈
            database.tokensOf userId ∧
          ∀ other ∈ database.tokensOf userId, other.issuedAt ≤ service.clock) := by
  intro event
  have rows : database.yggdrasilTokens.rows =
      ⟨userId, accessTokenHash, clientToken, service.clock, expiresAt⟩ ::
        service.database.yggdrasilTokens.rows := by
    rcases Sql.insertToken_ok executed with ⟨table, inserted, left⟩
    rw [left]
    exact (Table.insert_rows inserted).1
  constructor
  · intro increase
    rcases within increase.tail with ⟨standing, bounded⟩
    refine ⟨standing.insert rfl rfl rows increase, ?_⟩
    intro other
    have before := bounded other
    simp only [Database.tokensOf] at before
    simp only [Database.tokensOf, rows, List.filter_cons]
    by_cases same : userId = other
    · subst same
      simp only [decide_true, if_true, List.length_cons]
      omega
    · simp only [same, decide_false, Bool.false_eq_true, if_false]
      omega
  · intro increase
    rcases within increase.tail with ⟨standing, -⟩
    have joined : Standing state.config.maxTokensPerUser { service with database }
        (event :: history) := standing.insert rfl rfl rows increase
    rw [Database.mem_tokensOf, rows]
    refine ⟨⟨.head _, rfl⟩, ?_⟩
    intro other member
    have onLedger := joined.held other (Database.mem_tokensOf.mp member).1
    rcases List.mem_cons.mp (show other ∈ _ :: tokenLedger history from onLedger) with
      rfl | before
    · exact le_rfl
    · exact le_of_lt ((List.pairwise_cons.mp joined.ordered).1 other before)

theorem Kept.evict {userId : Uuid} {database : Database} {reply : Nat}
    (exceeds : Kept state (fun other => if other = userId then 1 else 0) (service, history))
    (executed : Sql.deleteTokens (Sql.beyondCap userId state.config.maxTokensPerUser
      service.database) service.database = (reply, database)) :
    let event : Event accounts := ⟨index, service, .statement (.evictTokens userId
      state.config.maxTokensPerUser), .ok reply, { service with database }⟩
    Within state ({ service with database }, event :: history) ∧
      (IssuesIncrease (event :: history) → 0 < state.config.maxTokensPerUser →
        ∀ token ∈ service.database.tokensOf userId,
          (∀ other ∈ service.database.tokensOf userId, other.issuedAt ≤ token.issuedAt) →
            token ∈ database.tokensOf userId) := by
  intro event
  have rows : database.yggdrasilTokens.rows = service.database.yggdrasilTokens.rows.filter
      fun token => !Sql.beyondCap userId state.config.maxTokensPerUser service.database token := by
    cases executed
    rfl
  constructor
  · intro increase
    rcases exceeds increase.tail with ⟨standing, bounded⟩
    refine ⟨standing.evict rows, ?_⟩
    intro other
    have left := standing.tokensOf_evict rows other
    change (database.tokensOf other).length ≤ _
    rw [left]
    split
    · have distinct : ((service.database.tokensOf userId).map (·.issuedAt)).Nodup := by
        have among : ∀ token ∈ service.database.tokensOf userId,
            token ∈ tokenLedger history := fun token member =>
          standing.held token (Database.mem_tokensOf.mp member).1
        refine List.Nodup.map_on ?_ ?_
        · intro one oneMem two twoMem same
          exact standing.eq_of_issuedAt (among one oneMem) (among two twoMem) same
        · exact (service.database.yggdrasilTokens.keysUnique.of_map _).filter _
      exact length_capped distinct
    · rename_i different
      simpa [different] using bounded other
  · intro increase positive token member newest
    rcases exceeds increase.tail with ⟨standing, -⟩
    rw [standing.tokensOf_evict rows, if_pos rfl]
    exact newest_capped member (by omega) newest

open Credentials

theorem issue_steady (positive : 0 < state.config.maxTokensPerUser)
    (within : Within state (service, history)) (userId : Uuid) (clientToken : Option String)
    (draws : Draws) :
    (issueYggdrasilTokens state userId clientToken draws).Meets (.steady accounts index)
      (fun tokens moment => Within state moment ∧
        (IssuesIncrease moment.2 → Holds state moment.1.database userId tokens) ∧
        tokens.clientToken = clientToken.getD draws.clientToken)
      (fun _ moment => Within state moment) (service, history) := by
  refine (meets_bind _ _).mpr (now_steady ?_)
  have looked : Within state
      (service, ⟨index, service, .now, service.clock, service⟩ :: history) :=
    within.quiet rfl rfl
  refine (meets_bind _ _).mpr (query_steady (fun reply database executed => ?_)
    fun error _ => looked.quiet rfl rfl)
  rcases looked.insert executed with ⟨exceeds, newest⟩
  refine (meets_bind _ _).mpr ((meets_whenever _ _).mpr ⟨fun _ => ?_, fun uncapped => ?_⟩)
  · refine (meets_bind _ _).mpr (query_steady (fun evicted after deleted => ?_) ?_)
    · rcases exceeds.evict (Except.ok.inj deleted) with ⟨back, stays⟩
      refine (meets_pure _).mpr ((meets_pure _).mpr ⟨back, ?_, rfl⟩)
      intro increase
      rcases newest increase.tail with ⟨member, last⟩
      exact ⟨_, stays increase positive _ member last, rfl, rfl⟩
    · intro error failed
      cases failed
  · exact absurd positive (of_decide_eq_false uncapped)

theorem refresh_steady (positive : 0 < state.config.maxTokensPerUser)
    (within : Within state (service, history)) (accessToken : String)
    (clientToken : Option String) (draws : Draws) :
    (refreshYggdrasil state accessToken clientToken draws).Meets (.steady accounts index)
      (fun refreshed moment => Within state moment ∧
        (IssuesIncrease moment.2 → Holds state moment.1.database refreshed.1.id refreshed.2) ∧
        ∃ old ∈ service.database.tokensOf refreshed.1.id,
          old.accessTokenHash = state.hashToken accessToken ∧
            old.clientToken = refreshed.2.clientToken)
      (fun _ moment => Within state moment) (service, history) := by
  have eligible : (eligibleUser state accessToken clientToken).Meets (.steady accounts index)
      (fun eligible moment => Within state moment ∧ eligible.1.id = eligible.2.1 ∧
        moment.1.database = service.database ∧
        ∃ old ∈ service.database.tokensOf eligible.2.1,
          old.accessTokenHash = state.hashToken accessToken ∧
            old.clientToken = eligible.2.2)
      (fun _ moment => Within state moment) (service, history) := by
    refine (meets_bind _ _).mpr (query_steady (fun reply database executed => ?_)
      fun error _ => within.quiet rfl rfl)
    cases executed
    have selected : Within state (service, ⟨index, service, .statement (.selectToken
        (state.hashToken accessToken)), .ok (Sql.selectToken service.clock
          (state.hashToken accessToken) service.database), service⟩ :: history) :=
      within.quiet rfl rfl
    refine (meets_bind _ _).mpr ((meets_okOr _ _).mpr ⟨fun _ => selected, fun row found => ?_⟩)
    refine (meets_bind _ _).mpr ((meets_refuse _ _).mpr ⟨fun _ => selected, fun _ => ?_⟩)
    refine (meets_bind _ _).mpr (query_steady (fun user after loaded => ?_)
      fun error _ => selected.quiet rfl rfl)
    cases loaded
    refine (meets_bind _ _).mpr ((meets_okOr _ _).mpr
      ⟨fun _ => selected.quiet rfl rfl, fun user present => ?_⟩)
    refine (meets_bind _ _).mpr ((meets_refuse _ _).mpr
      ⟨fun _ => selected.quiet rfl rfl, fun _ => ?_⟩)
    refine (meets_pure _).mpr ⟨selected.quiet rfl rfl, Database.id_of_find present, rfl, ?_⟩
    rcases Option.map_eq_some_iff.mp found with ⟨old, live, rfl⟩
    have stored := Table.find_eq_some.mp (Option.filter_eq_some_iff.mp live).1
    exact ⟨old, Database.mem_tokensOf.mpr ⟨stored.1, rfl⟩, stored.2, rfl⟩
  refine (meets_bind _ _).mpr (eligible.mono ?_ fun _ _ kept => kept)
  rintro ⟨user, owner, stored⟩ ⟨current, later⟩ ⟨kept, same, unchanged, old⟩
  refine (meets_bind _ _).mpr (query_steady (fun reply database executed => ?_) ?_)
  · have deleted : Within state ({ current with database }, ⟨index, current, .statement
        (.deleteToken (state.hashToken accessToken) none), .ok reply,
          { current with database }⟩ :: later) := by
      refine kept.delete rfl ?_
      cases executed
      rfl
    refine (meets_bind _ _).mpr ((issue_steady positive deleted owner (some stored) draws).mono
      ?_ fun _ _ kept => kept)
    rintro tokens moment ⟨after, holds, client⟩
    refine (meets_pure _).mpr ⟨after, ?_, ?_⟩
    · rw [same]
      exact holds
    · rw [same, client]
      exact old
  · intro error failed
    cases failed

/-- What a call comes to: the invariant, and for a pair that it returns its row, and
for a refresh the row it replaced. -/
def CallKeeps (state : AppState) (service : Service) (call : TokenCall)
    (outcome : Except AppError (Option (Uuid × YggdrasilTokens)))
    (moment : Service × List (Event accounts)) : Prop :=
  Within state moment ∧ ∀ userId tokens, outcome = .ok (some (userId, tokens)) →
    (IssuesIncrease moment.2 → Holds state moment.1.database userId tokens) ∧
    ∀ accessToken clientToken draws, call = .refresh accessToken clientToken draws →
      ∃ old ∈ service.database.tokensOf userId,
        old.accessTokenHash = state.hashToken accessToken ∧
          old.clientToken = tokens.clientToken

theorem CallKeeps.of_error {call : TokenCall} {error : AppError}
    {moment : Service × List (Event accounts)} (within : Within state moment) :
    CallKeeps state service call (.error error) moment :=
  ⟨within, fun _ _ failed => nomatch failed⟩

theorem CallKeeps.of_none {call : TokenCall} {moment : Service × List (Event accounts)}
    (within : Within state moment) : CallKeeps state service call (.ok none) moment :=
  ⟨within, fun _ _ other => by cases other⟩

theorem call_steady (positive : 0 < state.config.maxTokensPerUser)
    (within : Within state (service, history)) (call : TokenCall) :
    (handleTokens state call).Meets (.steady accounts index)
      (CallKeeps state service call) (service, history) := by
  refine meets_outcome.mpr ?_
  cases call with
  | issue userId clientToken draws =>
      refine (meets_bind _ _).mpr ((issue_steady positive within userId clientToken draws).mono
        ?_ fun _ _ kept => .of_error kept)
      rintro tokens moment ⟨kept, holds, -⟩
      refine (meets_pure _).mpr ⟨kept, ?_⟩
      intro other pair same
      cases same
      exact ⟨holds, fun _ _ _ other => nomatch other⟩
  | refresh accessToken clientToken draws =>
      refine (meets_bind _ _).mpr ((refresh_steady positive within accessToken clientToken
        draws).mono ?_ fun _ _ kept => .of_error kept)
      rintro refreshed moment ⟨kept, holds, old⟩
      refine (meets_pure _).mpr ⟨kept, ?_⟩
      intro other pair same
      cases same
      refine ⟨holds, ?_⟩
      intro presented supplied drawn call
      cases call
      exact old
  | invalidate accessToken clientToken =>
      refine (meets_bind _ _).mpr (query_steady (fun reply database executed => ?_)
        fun error failed => by cases failed)
      refine (meets_pure _).mpr (.of_none (within.delete rfl ?_))
      cases executed
      rfl
  | invalidateAll userId =>
      refine (meets_bind _ _).mpr (query_steady (fun reply database executed => ?_)
        fun error failed => by cases failed)
      refine (meets_pure _).mpr (.of_none (within.delete rfl ?_))
      cases executed
      rfl
  | cleanup =>
      refine (meets_bind _ _).mpr (query_steady (fun reply database executed => ?_)
        fun error failed => by cases failed)
      refine (meets_pure _).mpr (.of_none (within.delete rfl ?_))
      cases executed
      rfl
  | elapse seconds =>
      refine (meets_bind _ _).mpr fun result after _ performed => ?_
      cases performed
      exact (meets_pure _).mpr (.of_none (within.quiet rfl rfl))

end Calls

theorem call_turned {state : AppState} (positive : 0 < state.config.maxTokensPerUser)
    {call : TokenCall} {pool next : TokenPool}
    (within : Within state (pool.shared, pool.history))
    (turned : pool.turn (handleTokens state) (.atomically call []) = some next) :
    ∃ outcome, next.entries = pool.entries ++ [(call, .done outcome)] ∧
      CallKeeps state pool.shared call outcome (next.shared, next.history) := by
  rcases Pool.turn_atomically turned with ⟨outcome, executed, entries⟩
  exact ⟨outcome, entries, Process.execute_steady (call_steady positive within call) executed⟩

theorem within_run {state : AppState} (positive : 0 < state.config.maxTokensPerUser)
    {database : Database} {clock : Timestamp} (fresh : database.yggdrasilTokens.rows = [])
    {calls : List TokenCall} {final : TokenPool}
    (reached : run (Pool.turn (handleTokens state)) (.initial (.boot database clock))
      (inTurn calls) = some final) : Within state (final.shared, final.history) := by
  refine Pool.inTurn_invariant (fun pool => Within state (pool.shared, pool.history)) ?_ ?_
    reached
  · intro pool call next within turned
    rcases call_turned positive within turned with ⟨outcome, -, kept, -⟩
    exact kept
  · intro _
    refine ⟨.start database clock fresh, ?_⟩
    intro userId
    rw [Database.tokensOf]
    exact le_of_eq_of_le (congrArg (fun rows : List YggdrasilToken =>
      (rows.filter fun token => token.userId = userId).length) fresh) (Nat.zero_le _)

/-- After every call of every sequence with increasing issue times: no user holds
more pairs than the cap; the pairs held are the newest of those issued to the user
and not removed, and what is missing of them was evicted while the cap was full of
newer ones; a pair just returned is held; a refresh keeps the client token. -/
theorem token_cap (state : AppState) (positive : 0 < state.config.maxTokensPerUser)
    (database : Database) (fresh : database.yggdrasilTokens.rows = []) (clock : Timestamp)
    {calls : List TokenCall} {call : TokenCall} {middle final : TokenPool}
    (reached : run (Pool.turn (handleTokens state)) (.initial (.boot database clock))
      (inTurn calls) = some middle)
    (turned : middle.turn (handleTokens state) (.atomically call []) = some final)
    (increase : IssuesIncrease final.history) :
    (∀ userId, (final.shared.database.tokensOf userId).length ≤
      state.config.maxTokensPerUser.toNat) ∧
    (∀ userId, ∀ token ∈ final.shared.database.tokensOf userId,
      token ∈ tokenLedger final.history) ∧
    (∀ token ∈ tokenLedger final.history,
      token ∉ final.shared.database.tokensOf token.userId →
        (∀ kept ∈ final.shared.database.tokensOf token.userId,
          token.issuedAt < kept.issuedAt) ∧
        ∃ event ∈ final.history, displaces state.config.maxTokensPerUser token event) ∧
    ∃ outcome, final.entries = middle.entries ++ [(call, .done outcome)] ∧
      ∀ userId tokens, outcome = .ok (some (userId, tokens)) →
        Holds state final.shared.database userId tokens ∧
        ∀ accessToken clientToken draws, call = .refresh accessToken clientToken draws →
          ∃ old ∈ middle.shared.database.tokensOf userId,
            old.accessTokenHash = state.hashToken accessToken ∧
              old.clientToken = tokens.clientToken := by
  rcases call_turned positive (within_run positive fresh reached) turned with
    ⟨outcome, entries, within, returned⟩
  rcases within increase with ⟨standing, bounded⟩
  refine ⟨bounded, ?_, ?_, outcome, entries, ?_⟩
  · intro userId token member
    exact standing.held token (Database.mem_tokensOf.mp member).1
  · intro token onLedger missing
    have gone : token ∉ final.shared.database.yggdrasilTokens.rows := fun present =>
      missing (Database.mem_tokensOf.mpr ⟨present, rfl⟩)
    refine ⟨?_, standing.displaced token onLedger gone⟩
    intro kept member
    rcases Database.mem_tokensOf.mp member with ⟨present, owner⟩
    exact standing.older token onLedger gone kept present owner
  · intro userId tokens same
    rcases returned userId tokens same with ⟨holds, old⟩
    exact ⟨holds increase, old⟩

/-! ## Three pairs under a cap of two -/

def cappedState : AppState :=
  { plainState with config := { plainState.config with maxTokensPerUser := 2 } }

/-- The third pair evicts the first, and the second is refreshed. -/
def issuedThrice : List TokenCall :=
  [.issue 5 none (drawn "first"), .elapse 1, .issue 5 none (drawn "second"), .elapse 1,
    .issue 5 none (drawn "third"), .elapse 1]

theorem token_cap_thrice :
    ∃ middle final, run (Pool.turn (handleTokens cappedState))
        (.initial (.boot { steveDatabase with yggdrasilTokens := .empty } 0))
        (inTurn issuedThrice) = some middle ∧
      middle.turn (handleTokens cappedState)
        (.atomically (.refresh "second-access" none (drawn "fourth")) []) = some final ∧
      (final.shared.database.tokensOf 5).map (·.accessTokenHash) =
        ["fourth-access", "third-access"] ∧
      (final.shared.database.tokensOf 5).length ≤ 2 := by
  have shown : ((run (Pool.turn (handleTokens cappedState))
      (.initial (.boot { steveDatabase with yggdrasilTokens := .empty } 0))
      (inTurn issuedThrice)).bind fun middle =>
        (middle.turn (handleTokens cappedState)
          (.atomically (.refresh "second-access" none (drawn "fourth")) [])).map fun final =>
            decide ((final.shared.database.tokensOf 5).map (·.accessTokenHash) =
              ["fourth-access", "third-access"] ∧ IssuesIncrease final.history)) =
        some true := by
    decide +kernel
  rcases Option.bind_eq_some_iff.mp shown with ⟨middle, reached, turned⟩
  rcases Option.map_eq_some_iff.mp turned with ⟨final, next, holds⟩
  rcases of_decide_eq_true holds with ⟨held, increase⟩
  exact ⟨middle, final, reached, next, held, (token_cap cappedState (by decide)
    { steveDatabase with yggdrasilTokens := .empty } rfl 0 reached next increase).1 5⟩

end Loontail.Accounts
