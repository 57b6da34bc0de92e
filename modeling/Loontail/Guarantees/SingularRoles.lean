import Loontail.Catalog.MediaProtocol
import Loontail.Concurrency.Run

/-! # One row for a slot

An upload to a slot removes the rows that it found there and adds its own. It does not see a
row that another upload adds after that, so two of them can leave two rows. -/

namespace Loontail.Catalog

open Concurrency Disk Relational

/-! ## Uploads that are overtaken -/

def looksFor : Event mediaStore → Option (Uuid × MediaRole)
  | ⟨_, _, .statement (.look _ (.ofRole clientId role)), .ok _, _⟩ => some (clientId, role)
  | _ => none

def adds (event : Event mediaStore) (slot : Uuid × MediaRole) : Bool :=
  match event with
  | ⟨_, before, .statement (.commit transaction), .ok _, _⟩ =>
      (before.media.writes transaction).inserted.any fun row => row.slot = slot
  | _ => false

def commits : Event mediaStore → Bool
  | ⟨_, _, .statement (.commit _), .ok _, _⟩ => true
  | _ => false

/-- The history, newest first, has another upload to the slot that commits after the process
has looked for the rows there. -/
def overtaken (index : Nat) : List (Event mediaStore) → Bool
  | [] => false
  | event :: earlier =>
      (event.process ≠ index && earlier.any fun looked =>
        looked.process = index && (looksFor looked).any (adds event)) ||
          overtaken index earlier

abbrev MediaPool := Pool mediaStore MediaRequest (Except AppError MediaReply)

def inOrder (pool : MediaPool) : Move MediaRequest → Bool
  | .advance index =>
      match pool.upcoming index with
      | some (.statement (.commit _)) => !overtaken index pool.history
      | _ => true
  | _ => true

def SingularSlots (rows : List StoredMedia) : Prop :=
  ∀ clientId, ∀ role ∈ singularRoles,
    (rows.filter fun row => row.slot = (clientId, role)).length ≤ 1

/-! ## What a process on a transaction knows -/

/-- The rows of the slot that the process has looked through are those that it found and has
not taken, unless it was overtaken. -/
structure Knows (media : ReadCommitted StoredMedia Uuid) (history : List (Event mediaStore))
    (index transaction : Nat) (work : MediaWork) : Prop where
  opened : transaction < media.begun
  filled : (media.writes transaction).inserted.map StoredMedia.slot = work.filled.toList
  clears : ∀ slot, work.filled = some slot → slot.2 ∈ singularRoles → work.Clears slot
  looked : ∀ clientId role ids, work.looked = some (.ofRole clientId role, ids) →
    ∃ event ∈ history, event.process = index ∧ looksFor event = some (clientId, role)
  found : ∀ clientId role ids, work.looked = some (.ofRole clientId role, ids) →
    overtaken index history = true ∨
      ∀ row ∈ media.remaining mediaKey transaction, row.slot = (clientId, role) →
        row.id ∈ ids ∧ row.id ∉ work.taken

section Knowing

variable {media after : ReadCommitted StoredMedia Uuid} {history : List (Event mediaStore)}
  {index transaction : Nat} {work : MediaWork} {event : Event mediaStore}

theorem overtaken_cons (later : overtaken index history = true) (event : Event mediaStore) :
    overtaken index (event :: history) = true := by
  rw [overtaken, later, Bool.or_true]

theorem overtaken_of_adds {slot : Uuid × MediaRole} (other : event.process ≠ index)
    (looked : ∃ earlier ∈ history, earlier.process = index ∧ looksFor earlier = some slot)
    (added : adds event slot = true) : overtaken index (event :: history) = true := by
  obtain ⟨earlier, member, own, slots⟩ := looked
  rw [overtaken, Bool.or_eq_true, Bool.and_eq_true, List.any_eq_true]
  refine .inl ⟨decide_eq_true other, earlier, member, ?_⟩
  rw [slots, Option.any_some, added, Bool.and_true]
  exact decide_eq_true own

theorem Knows.frame (knows : Knows media history index transaction work)
    (begun : media.begun ≤ after.begun)
    (same : after.writes transaction = media.writes transaction)
    (rows : ∀ row ∈ after.committed,
      row ∈ media.committed ∨ event.process ≠ index ∧ adds event row.slot = true) :
    Knows after (event :: history) index transaction work where
  opened := Nat.lt_of_lt_of_le knows.opened begun
  filled := by rw [same]; exact knows.filled
  clears := knows.clears
  looked := fun clientId role ids looked => by
    obtain ⟨earlier, member, known⟩ := knows.looked clientId role ids looked
    exact ⟨earlier, List.mem_cons_of_mem _ member, known⟩
  found := fun clientId role ids looked => by
    rcases knows.found clientId role ids looked with late | found
    · exact .inl (overtaken_cons late event)
    · by_cases added : event.process ≠ index ∧ adds event (clientId, role) = true
      · exact .inl (overtaken_of_adds added.1 (knows.looked clientId role ids looked) added.2)
      · refine .inr fun row member slot => ?_
        rw [ReadCommitted.mem_remaining, same] at member
        rcases rows row member.1 with old | ⟨other, adding⟩
        · exact found row (ReadCommitted.mem_remaining.mpr ⟨old, member.2⟩) slot
        · exact (added ⟨other, slot ▸ adding⟩).elim

theorem Knows.begun (history : List (Event mediaStore)) (index : Nat) :
    Knows media.begin.2 history index media.begin.1 ⟨none, [], none⟩ where
  opened := Nat.lt_succ_self _
  filled := by
    have nothing : media.begin.2.writes media.begin.1 = .empty := media.unbegun _ (Nat.le_refl _)
    rw [nothing]
    rfl
  clears := nofun
  looked := nofun
  found := nofun

theorem Knows.looks (knows : Knows media history index transaction ⟨none, [], none⟩)
    {rows : MediaFilter} (own : event.process = index)
    (noted : ∀ clientId role, rows = .ofRole clientId role →
      looksFor event = some (clientId, role)) :
    Knows media (event :: history) index transaction
      ⟨some (rows, media.look mediaKey transaction rows.matches), [], none⟩ where
  opened := knows.opened
  filled := knows.filled
  clears := nofun
  looked := fun clientId role ids looked => by
    cases looked
    exact ⟨event, List.mem_cons_self, own, noted clientId role rfl⟩
  found := fun clientId role ids looked => by
    cases looked
    refine .inr fun row member slot => ⟨?_, List.not_mem_nil⟩
    refine ReadCommitted.mem_look.mpr ⟨row, List.mem_append_left _ member, ?_, rfl⟩
    obtain ⟨client, kind⟩ := Prod.mk.inj slot
    simp [MediaFilter.matches, client, kind]

theorem Knows.takes {looked : Option (MediaFilter × List Uuid)} {taken : List Uuid}
    (knows : Knows media history index transaction ⟨looked, taken, none⟩) (id : Uuid) :
    Knows (media.take mediaKey transaction id).2 (event :: history) index transaction
      ⟨looked, id :: taken, none⟩ where
  opened := by
    rw [ReadCommitted.take_begun]
    exact knows.opened
  filled := by
    rw [ReadCommitted.take_inserted knows.opened (List.map_eq_nil_iff.mp knows.filled)]
    rfl
  clears := nofun
  looked := fun clientId role ids looked => by
    obtain ⟨earlier, member, known⟩ := knows.looked clientId role ids looked
    exact ⟨earlier, List.mem_cons_of_mem _ member, known⟩
  found := fun clientId role ids looked => by
    rcases knows.found clientId role ids looked with late | found
    · exact .inl (overtaken_cons late event)
    · refine .inr fun row member slot => ?_
      rw [ReadCommitted.take_remaining knows.opened, List.mem_filter] at member
      obtain ⟨listed, untaken⟩ := found row member.1 slot
      refine ⟨listed, fun again => ?_⟩
      rcases List.mem_cons.mp again with same | earlier
      · exact of_decide_eq_true member.2 same
      · exact untaken earlier

theorem Knows.inserts {row : StoredMedia}
    (knows : Knows media history index transaction work) (unfilled : work.filled = none)
    (clears : row.role ∈ singularRoles → work.Clears row.slot) :
    Knows (media.insert transaction row) (event :: history) index transaction
      { work with filled := some row.slot } := by
  have writes : (media.insert transaction row).writes transaction =
      { media.writes transaction with
        inserted := (media.writes transaction).inserted ++ [row] } :=
    ReadCommitted.put_writes knows.opened
  have remaining : (media.insert transaction row).remaining mediaKey transaction =
      media.remaining mediaKey transaction := by
    rw [ReadCommitted.remaining, writes, ReadCommitted.remaining, ReadCommitted.insert,
      ReadCommitted.put_committed]
  refine ⟨?_, ?_, ?_, ?_, ?_⟩
  · rw [ReadCommitted.insert, ReadCommitted.put_begun]
    exact knows.opened
  · rw [writes, List.map_append, knows.filled, unfilled]
    rfl
  · rintro slot filled singular
    cases filled
    exact clears singular
  · intro clientId role ids looked
    obtain ⟨earlier, member, known⟩ := knows.looked clientId role ids looked
    exact ⟨earlier, List.mem_cons_of_mem _ member, known⟩
  · intro clientId role ids looked
    rw [remaining]
    exact (knows.found clientId role ids looked).imp_left fun late => overtaken_cons late event

theorem Knows.commits (knows : Knows media history index transaction work)
    (singular : SingularSlots media.committed) (ordered : overtaken index history = false) :
    SingularSlots (media.commit mediaKey transaction).committed := by
  intro clientId role single
  have fewer : ((media.remaining mediaKey transaction).filter fun row =>
      row.slot = (clientId, role)).length ≤ 1 :=
    Nat.le_trans ((List.filter_sublist.filter _).length_le) (singular clientId role single)
  have committed : (media.commit mediaKey transaction).committed =
      media.remaining mediaKey transaction ++ (media.writes transaction).inserted := rfl
  rw [committed, List.filter_append, List.length_append]
  cases filled : work.filled with
  | none =>
      have empty : (media.writes transaction).inserted = [] := by
        rw [← List.map_eq_nil_iff, knows.filled, filled]
        rfl
      rw [empty]
      exact fewer
  | some slot =>
      obtain ⟨row, only, here⟩ : ∃ row, (media.writes transaction).inserted = [row] ∧
          row.slot = slot := by
        have slots := knows.filled
        rw [filled, Option.toList_some, List.map_eq_singleton_iff] at slots
        exact slots
      rw [only]
      by_cases same : slot = (clientId, role)
      · -- every row that was there is taken
        subst same
        obtain ⟨ids, looked, all⟩ := knows.clears _ filled single
        have left : (media.remaining mediaKey transaction).filter
            (fun row => row.slot = (clientId, role)) = [] := by
          rcases knows.found clientId role ids looked with late | found
          · rw [late] at ordered
            cases ordered
          · refine List.filter_eq_nil_iff.mpr fun row member slot => ?_
            obtain ⟨listed, untaken⟩ := found row member (of_decide_eq_true slot)
            exact untaken (all row.id listed)
        rw [left, List.length_nil, Nat.zero_add]
        exact List.length_filter_le _ [row]
      · have apart : [row].filter (fun row => row.slot = (clientId, role)) = [] := by
          rw [List.filter_eq_nil_iff]
          intro other member slot
          rw [List.mem_singleton.mp member] at slot
          exact same (here.symm.trans (of_decide_eq_true slot))
        rw [apart]
        exact fewer

end Knowing

/-! ## What one operation does -/

inductive MediaStep (event : Event mediaStore) : MediaPhase → MediaPhase → Prop where
  | idle {phase : MediaPhase} (same : event.after.media = event.before.media) :
      MediaStep event phase phase
  | begin (media : event.after.media = event.before.media.begin.2) :
      MediaStep event .outside (.within event.before.media.begin.1 ⟨none, [], none⟩)
  | look {transaction : Nat} {rows : MediaFilter}
      (same : event.after.media = event.before.media)
      (noted : ∀ clientId role, rows = .ofRole clientId role →
        looksFor event = some (clientId, role)) :
      MediaStep event (.within transaction ⟨none, [], none⟩) (.within transaction
        ⟨some (rows, event.before.media.look mediaKey transaction rows.matches), [], none⟩)
  | take {transaction : Nat} {looked : Option (MediaFilter × List Uuid)} {taken : List Uuid}
      {id : Uuid} (media : event.after.media = (event.before.media.take mediaKey transaction id).2) :
      MediaStep event (.within transaction ⟨looked, taken, none⟩)
        (.within transaction ⟨looked, id :: taken, none⟩)
  | insert {transaction : Nat} {work : MediaWork} {row : StoredMedia}
      (unfilled : work.filled = none)
      (clears : row.role ∈ singularRoles → work.Clears row.slot)
      (media : event.after.media = event.before.media.insert transaction row) :
      MediaStep event (.within transaction work)
        (.within transaction { work with filled := some row.slot })
  | commit {transaction : Nat} {work : MediaWork}
      (committed : commits event = true)
      (media : event.after.media = event.before.media.commit mediaKey transaction)
      (adding : ∀ row ∈ (event.before.media.writes transaction).inserted,
        adds event row.slot = true) :
      MediaStep event (.within transaction work) .outside
  | rollback {transaction : Nat} {work : MediaWork}
      (media : event.after.media = event.before.media.rollback transaction) :
      MediaStep event (.within transaction work) .outside

theorem media_step {index : Nat} {before after : MediaService} {phase : MediaPhase}
    {operation : MediaOperation} {result : operation.Result} (allowed : phase.allows operation)
    (occurs : mediaStore.Occurs before operation result after) :
    MediaStep ⟨index, before, operation, result, after⟩ phase (phase.after operation result) := by
  cases operation with
  | disk call =>
      have same : after.media = before.media := by
        rcases occurs_disk occurs with ⟨-, rfl⟩ | ⟨-, rfl⟩
        · rfl
        · rfl
      cases phase with
      | outside => exact .idle same
      | within transaction work => exact .idle same
  | rollback transaction =>
      cases phase with
      | outside => exact allowed.elim
      | within own work =>
          obtain rfl : transaction = own := allowed
          exact .rollback (by rw [occurs_rollback occurs])
  | statement statement =>
      rcases occurs_statement occurs with executed | ⟨rfl, rfl⟩
      · cases statement with
        | clientExists id =>
            cases executed
            cases phase with
            | outside => exact .idle rfl
            | within => exact allowed.elim
        | begin =>
            cases executed
            cases phase with
            | outside => exact .begin rfl
            | within => exact allowed.elim
        | look transaction rows =>
            cases executed
            cases phase with
            | outside => exact allowed.elim
            | within own work =>
                obtain ⟨rfl, rfl⟩ := allowed
                refine .look rfl ?_
                rintro clientId role rfl
                rfl
        | take transaction id =>
            cases executed
            cases phase with
            | outside => exact allowed.elim
            | within own work =>
                obtain ⟨looked, taken, filled⟩ := work
                obtain ⟨rfl, rfl⟩ := allowed
                exact .take rfl
        | insert transaction media now =>
            cases phase with
            | outside => exact allowed.elim
            | within own work =>
                obtain ⟨rfl, unfilled, clears⟩ := allowed
                simp only [MediaStatement.execute] at executed
                split at executed
                · cases executed
                  exact @MediaStep.insert _ _ _ (media.row before.drawn now) unfilled clears rfl
                · cases executed
                  exact .idle rfl
        | commit transaction =>
            cases executed
            cases phase with
            | outside => exact allowed.elim
            | within own work =>
                obtain rfl : transaction = own := allowed
                refine .commit rfl rfl fun row member => ?_
                exact List.any_eq_true.mpr ⟨row, member, decide_eq_true rfl⟩
      · cases phase with
        | outside => cases statement <;> exact .idle rfl
        | within transaction work => cases statement <;> exact .idle rfl

section Step

variable {event : Event mediaStore} {phase following : MediaPhase}
  {history : List (Event mediaStore)} {index transaction : Nat} {work : MediaWork}

theorem Knows.beside (knows : Knows event.before.media history index transaction work)
    (step : MediaStep event phase following) (foreign : event.process ≠ index)
    (apart : ∀ own, phase ≠ .within transaction own) :
    Knows event.after.media (event :: history) index transaction work := by
  have other : ∀ own earlier, phase = .within own earlier → transaction ≠ own := by
    rintro own earlier rfl rfl
    exact apart earlier rfl
  cases step with
  | idle same =>
      rw [same]
      exact knows.frame (Nat.le_refl _) rfl fun row member => .inl member
  | begin media =>
      rw [media]
      exact knows.frame (Nat.le_succ _) rfl fun row member => .inl member
  | look same noted =>
      rw [same]
      exact knows.frame (Nat.le_refl _) rfl fun row member => .inl member
  | take media =>
      rw [media]
      refine knows.frame ?_ (ReadCommitted.take_others (other _ _ rfl)) ?_
      · rw [ReadCommitted.take_begun]
      · rw [ReadCommitted.take_committed]
        exact fun row member => .inl member
  | insert unfilled clears media =>
      rw [media, ReadCommitted.insert]
      refine knows.frame ?_ (ReadCommitted.put_others (other _ _ rfl)) ?_
      · rw [ReadCommitted.put_begun]
      · rw [ReadCommitted.put_committed]
        exact fun row member => .inl member
  | commit committed media adding =>
      rw [media]
      refine knows.frame ?_ (ReadCommitted.commit_others (other _ _ rfl)) fun row member => ?_
      · rw [ReadCommitted.commit_begun]
      · rcases List.mem_append.mp member with old | new
        · exact .inl (ReadCommitted.mem_remaining.mp old).1
        · exact .inr ⟨foreign, adding row new⟩
  | rollback media =>
      rw [media, ReadCommitted.rollback]
      refine knows.frame ?_ (ReadCommitted.put_others (other _ _ rfl)) ?_
      · rw [ReadCommitted.put_begun]
      · rw [ReadCommitted.put_committed]
        exact fun row member => .inl member

theorem MediaStep.knows (step : MediaStep event phase following) (own : event.process = index)
    (knows : ∀ {transaction work}, phase = .within transaction work →
      Knows event.before.media history index transaction work)
    (inside : following = .within transaction work) :
    Knows event.after.media (event :: history) index transaction work := by
  cases step with
  | idle same =>
      rw [same]
      exact (knows inside).frame (Nat.le_refl _) rfl fun row member => .inl member
  | begin media =>
      cases inside
      rw [media]
      exact .begun (event :: history) index
  | look same noted =>
      cases inside
      rw [same]
      exact (knows rfl).looks own noted
  | take media =>
      cases inside
      rw [media]
      exact (knows rfl).takes _
  | insert unfilled clears media =>
      cases inside
      rw [media]
      exact (knows rfl).inserts unfilled clears
  | commit => cases inside
  | rollback => cases inside

theorem MediaStep.goes_on (step : MediaStep event phase following)
    (inside : following = .within transaction work) :
    (∃ earlier, phase = .within transaction earlier) ∨ transaction = event.before.media.begun := by
  cases step with
  | idle same => exact .inl ⟨work, inside⟩
  | begin media =>
      cases inside
      exact .inr rfl
  | look same noted =>
      cases inside
      exact .inl ⟨_, rfl⟩
  | take media =>
      cases inside
      exact .inl ⟨_, rfl⟩
  | insert unfilled clears media =>
      cases inside
      exact .inl ⟨_, rfl⟩
  | commit => cases inside
  | rollback => cases inside

theorem MediaStep.committed (step : MediaStep event phase following) :
    event.after.media.committed = event.before.media.committed ∨
      ∃ transaction work, phase = .within transaction work ∧ commits event = true ∧
        event.after.media = event.before.media.commit mediaKey transaction := by
  cases step with
  | idle same => exact .inl (by rw [same])
  | begin media => exact .inl (by rw [media]; rfl)
  | look same noted => exact .inl (by rw [same])
  | take media => exact .inl (by rw [media, ReadCommitted.take_committed])
  | insert unfilled clears media =>
      exact .inl (by rw [media, ReadCommitted.insert, ReadCommitted.put_committed])
  | commit committed media adding => exact .inr ⟨_, _, rfl, committed, media⟩
  | rollback media =>
      exact .inl (by rw [media, ReadCommitted.rollback, ReadCommitted.put_committed])

end Step

/-! ## Pools -/

structure Orderly (pool : MediaPool) : Prop where
  singular : SingularSlots pool.shared.media.committed
  apart : ∀ {left right transaction work other},
    pool.phaseOf mediaProtocol left = some (.within transaction work) →
    pool.phaseOf mediaProtocol right = some (.within transaction other) → left = right
  knows : ∀ {index transaction work},
    pool.phaseOf mediaProtocol index = some (.within transaction work) →
    Knows pool.shared.media pool.history index transaction work

theorem Orderly.started {pool next : MediaPool} {newest : Nat} (orderly : Orderly pool)
    (shared : next.shared = pool.shared) (history : next.history = pool.history)
    (phases : ∀ other, next.phaseOf mediaProtocol other =
      if other = newest then some .outside else pool.phaseOf mediaProtocol other) :
    Orderly next := by
  have before : ∀ {index transaction work},
      next.phaseOf mediaProtocol index = some (.within transaction work) →
      pool.phaseOf mediaProtocol index = some (.within transaction work) := by
    intro index transaction work inside
    rw [phases] at inside
    split at inside
    · cases inside
    · exact inside
  refine ⟨?_, fun left right => orderly.apart (before left) (before right), fun inside => ?_⟩
  · rw [shared]
    exact orderly.singular
  · rw [shared, history]
    exact orderly.knows (before inside)

theorem Orderly.operated {pool next : MediaPool} {event : Event mediaStore}
    {phase following : MediaPhase} (orderly : Orderly pool) (found : event.before = pool.shared)
    (current : pool.phaseOf mediaProtocol event.process = some phase)
    (step : MediaStep event phase following)
    (ordered : commits event = true → overtaken event.process pool.history = false)
    (shared : next.shared = event.after) (history : next.history = event :: pool.history)
    (phases : ∀ other, next.phaseOf mediaProtocol other =
      if other = event.process then some following else pool.phaseOf mediaProtocol other) :
    Orderly next := by
  have own : ∀ {transaction work}, phase = .within transaction work →
      Knows event.before.media pool.history event.process transaction work := by
    rintro transaction work rfl
    rw [found]
    exact orderly.knows current
  have others : ∀ {index transaction work}, index ≠ event.process →
      next.phaseOf mediaProtocol index = some (.within transaction work) →
      pool.phaseOf mediaProtocol index = some (.within transaction work) := by
    intro index transaction work foreign inside
    rwa [phases, if_neg foreign] at inside
  -- the transaction of the process is not that of another one
  have distinct : ∀ {index transaction work other}, index ≠ event.process →
      pool.phaseOf mediaProtocol index = some (.within transaction work) →
      following ≠ .within transaction other := by
    intro index transaction work other foreign inside same
    rcases step.goes_on same with ⟨earlier, rfl⟩ | fresh
    · exact foreign (orderly.apart inside current)
    · have opened := (orderly.knows inside).opened
      rw [fresh, found] at opened
      exact Nat.lt_irrefl _ opened
  constructor
  · rw [shared]
    rcases step.committed with same | ⟨transaction, work, inside, ended, committed⟩
    · rw [same, found]
      exact orderly.singular
    · rw [committed]
      refine (own inside).commits ?_ (ordered ended)
      rw [found]
      exact orderly.singular
  · intro left right transaction work other leftInside rightInside
    by_cases first : left = event.process
    · by_cases second : right = event.process
      · rw [first, second]
      · rw [phases, if_pos first] at leftInside
        exact (distinct second (others second rightInside) (Option.some.inj leftInside)).elim
    · by_cases second : right = event.process
      · rw [phases, if_pos second] at rightInside
        exact (distinct first (others first leftInside) (Option.some.inj rightInside)).elim
      · exact orderly.apart (others first leftInside) (others second rightInside)
  · intro index transaction work inside
    rw [shared, history]
    by_cases foreign : index = event.process
    · subst foreign
      rw [phases, if_pos rfl] at inside
      exact step.knows rfl own (Option.some.inj inside)
    · have knows := orderly.knows (others foreign inside)
      rw [← found] at knows
      refine knows.beside step (Ne.symm foreign) fun work same => foreign ?_
      exact orderly.apart (others foreign inside) (same ▸ current)

theorem Orderly.move {storageRoot : List String} {pool next : MediaPool}
    {choice : Move MediaRequest} (orderly : Orderly pool)
    (obeys : pool.Obeys mediaProtocol fun _ _ => True) (ordered : inOrder pool choice = true)
    (moved : pool.move (handleMedia storageRoot) choice = some next) : Orderly next := by
  rcases Pool.move_phases obeys moved with ⟨request, -, shared, history, phases⟩ |
    ⟨index, phase, operation, result, after, made, upcoming, current, allowed, occurs,
      shared, history, phases⟩
  · exact orderly.started shared history phases
  · refine @Orderly.operated pool next ⟨index, pool.shared, operation, result, after⟩ phase _
      orderly rfl current (media_step allowed occurs) (fun committed => ?_) shared history phases
    unfold commits at committed
    split at committed
    · rename_i event process before transaction reply left same
      cases same
      rcases made with rfl | ⟨-, fault⟩
      · simp only [inOrder, upcoming, Bool.not_eq_true'] at ordered
        exact ordered
      · cases fault
    · cases committed

/-- Where no upload is overtaken before it commits, every state that is reached has one row at
most for each client and each role with a single slot. -/
theorem singular_slots_kept (storageRoot : List String) (start : MediaService)
    (singular : SingularSlots start.media.committed) {moves : List (Move MediaRequest)}
    {final : MediaPool}
    (ordered : Along (Pool.move (handleMedia storageRoot))
      (fun pool choice => inOrder pool choice = true) (.initial start) moves)
    (reached : run (Pool.move (handleMedia storageRoot)) (.initial start) moves = some final) :
    SingularSlots final.shared.media.committed := by
  have orderly : Orderly (.initial start) := ⟨singular, nofun, nofun⟩
  exact (Pool.invariant_of_protocol handleMedia_follows
    (fun pool choice next orderly obeys ordered moved => orderly.move obeys ordered moved)
    orderly ordered reached).1.singular

def oneClient : MediaService where
  clients := {
    rows := [⟨1, "aurora", true, none, none, none, none, none, none, 0, none, 0⟩]
    issued := [1]
    keysUnique := by decide
    slotsUnique := by decide
    keysIssued := by decide }
  media := .start []
  disk := .empty
  drawn := 0

def posterBody : Bundles.Multipart where
  fields := [⟨some "role", none, [], none, .ok "poster"⟩,
    ⟨some "file", some "poster.png", [[0x89, 0x50, 0x4E, 0x47]], none, .ok ""⟩]
  failure := none

def twoPosters : List (Move MediaRequest) :=
  [.start (.upload 1 posterBody "a" 0), .start (.upload 1 posterBody "b" 0)]

/-- The second upload begins when the first has ended, and replaces its row. -/
def postersInTurn : List (Move MediaRequest) :=
  twoPosters ++ List.replicate 8 (.advance 0) ++ List.replicate 10 (.advance 1)

theorem singular_slots_kept_in_turn :
    ∃ final, run (Pool.move (handleMedia ["media"])) (.initial oneClient) postersInTurn =
      some final ∧ final.succeeded = true ∧ SingularSlots final.shared.media.committed := by
  have ended : ((run (Pool.move (handleMedia ["media"])) (.initial oneClient)
      postersInTurn).map fun final => final.succeeded) = some true := by decide +kernel
  obtain ⟨final, reached, succeeded⟩ := Option.map_eq_some_iff.mp ended
  have ordered : Along (Pool.move (handleMedia ["media"]))
      (fun pool choice => inOrder pool choice = true) (.initial oneClient) postersInTurn := by
    decide +kernel
  exact ⟨final, reached, succeeded,
    singular_slots_kept ["media"] oneClient (fun _ _ _ => Nat.zero_le _) ordered reached⟩

/-- Both uploads look before either has committed. -/
def postersCrossing : List (Move MediaRequest) :=
  twoPosters ++ List.replicate 6 (.advance 0) ++ List.replicate 6 (.advance 1) ++
    List.replicate 2 (.advance 0) ++ List.replicate 2 (.advance 1)

theorem singular_slots_doubled :
    ¬∀ (storageRoot : List String) (start : MediaService) (moves : List (Move MediaRequest))
      (final : MediaPool), SingularSlots start.media.committed →
      run (Pool.move (handleMedia storageRoot)) (.initial start) moves = some final →
      SingularSlots final.shared.media.committed := by
  intro always
  have doubled : ((run (Pool.move (handleMedia ["media"])) (.initial oneClient)
      postersCrossing).map fun final => (final.shared.media.committed.filter fun row =>
        row.slot = (1, .poster)).length) = some 2 := by decide +kernel
  obtain ⟨final, reached, two⟩ := Option.map_eq_some_iff.mp doubled
  have single := always ["media"] oneClient postersCrossing final (fun _ _ _ => Nat.zero_le _)
    reached 1 .poster (by decide)
  rw [two] at single
  exact absurd single (by decide)

end Loontail.Catalog
