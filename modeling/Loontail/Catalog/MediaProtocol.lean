import Loontail.Catalog.Media
import Loontail.Concurrency.Protocol

/-! # The course of a request for media

A request works on one transaction at a time. Before it inserts a row of a role that has a
single slot it has looked for the rows of that slot and taken each of them. -/

namespace Loontail.Catalog

open Concurrency Disk Relational

def StoredMedia.slot (row : StoredMedia) : Uuid × MediaRole := (row.clientId, row.role)

/-- What a request has done on its transaction: the rows that it found and those that it took,
and the slot of the row that it inserted. -/
structure MediaWork where
  looked : Option (MediaFilter × List Uuid)
  taken : List Uuid
  filled : Option (Uuid × MediaRole)

def MediaWork.Clears (work : MediaWork) (slot : Uuid × MediaRole) : Prop :=
  ∃ ids, work.looked = some (.ofRole slot.1 slot.2, ids) ∧ ∀ id ∈ ids, id ∈ work.taken

inductive MediaPhase where
  | outside
  | within (transaction : Nat) (work : MediaWork)

namespace MediaPhase

def allows : MediaPhase → MediaOperation → Prop
  | _, .disk _ => True
  | outside, .statement (.clientExists _) => True
  | outside, .statement .begin => True
  | within transaction work, .statement (.look other _) =>
      other = transaction ∧ work = ⟨none, [], none⟩
  | within transaction work, .statement (.take other _) =>
      other = transaction ∧ work.filled = none
  | within transaction work, .statement (.insert other media _) =>
      other = transaction ∧ work.filled = none ∧
        (media.role ∈ singularRoles → work.Clears (media.clientId, media.role))
  | within transaction _, .statement (.commit other) => other = transaction
  | within transaction _, .rollback other => other = transaction
  | _, _ => False

def after (phase : MediaPhase) (operation : MediaOperation) (result : operation.Result) :
    MediaPhase :=
  match phase, operation, result with
  | outside, .statement .begin, .ok transaction => within transaction ⟨none, [], none⟩
  | within transaction work, .statement (.look _ rows), .ok ids =>
      within transaction { work with looked := some (rows, ids) }
  | within transaction work, .statement (.take _ id), .ok _ =>
      within transaction { work with taken := id :: work.taken }
  | within transaction work, .statement (.insert _ media _), .ok _ =>
      within transaction { work with filled := some (media.clientId, media.role) }
  | within _ _, .statement (.commit _), .ok _ => outside
  | within _ _, .rollback _, _ => outside
  | phase, _, _ => phase

end MediaPhase

@[reducible] def mediaProtocol : Protocol mediaStore MediaRequest where
  Phase := MediaPhase
  initial := fun _ => .outside
  allows := MediaPhase.allows
  after := MediaPhase.after

/-! ## The handlers follow it -/

section Programs

variable {Reply : Type} {transaction : Nat} {phase : MediaPhase} {work : MediaWork}
  {storageRoot : List String}

theorem disk_follows {part : MediaHandler Reply}
    (takes : part.Meets (.footprint fun operation => ∃ call, operation = .disk call)
      (fun _ _ => True) (fun _ _ => True) ())
    {onOk : Reply → MediaPhase → Prop} {onError : AppError → MediaPhase → Prop}
    (replied : ∀ reply, onOk reply phase) (refused : ∀ error, onError error phase) :
    part.Meets mediaProtocol.logic onOk onError phase := by
  refine takes.of_footprint ?_ (fun reply _ => replied reply) fun error _ => refused error
  rintro operation ⟨call, rfl⟩
  refine Protocol.ignores ?_ fun result => ?_
  · cases phase with
    | outside => trivial
    | within => trivial
  · cases phase with
    | outside => rfl
    | within => rfl

theorem unlinkUrl_onDisk (storageRoot : List String) (url : String) :
    (unlinkUrl storageRoot url).Meets
      (.footprint fun operation => ∃ call, operation = .disk call) (fun _ _ => True)
      (fun _ _ => True) () := by
  unfold unlinkUrl
  split
  · exact ⟨⟨_, rfl⟩, fun _ => trivial⟩
  · trivial

theorem unlinkUrls_onDisk (storageRoot : List String) (urls : List String) :
    (unlinkUrls storageRoot urls).Meets
      (.footprint fun operation => ∃ call, operation = .disk call) (fun _ _ => True)
      (fun _ _ => True) () := by
  induction urls with
  | nil => trivial
  | cons url rest induction =>
      exact (Fallible.meets_bind _ _).mpr ((unlinkUrl_onDisk storageRoot url).mono
        (fun _ _ _ => induction) fun _ _ _ => trivial)

theorem writeFile_onDisk (path : List String) (bytes : Bytes) :
    (writeFile path bytes).Meets
      (.footprint fun operation => ∃ call, operation = .disk call) (fun _ _ => True)
      (fun _ _ => True) () := by
  unfold writeFile
  simp only [Fallible.meets_bind, meets_ioMedia]
  refine ⟨⟨_, rfl⟩, fun result => ?_⟩
  cases result with
  | error error => trivial
  | ok made =>
      refine ⟨⟨_, rfl⟩, fun result => ?_⟩
      cases result with
      | error error => trivial
      | ok created =>
          refine ⟨⟨_, rfl⟩, fun result => ?_⟩
          cases result <;> trivial

theorem takeAll_follows (looked : Option (MediaFilter × List Uuid)) (taken ids : List Uuid) :
    (takeAll transaction ids).Meets mediaProtocol.logic
      (fun _ following => ∃ more, following = .within transaction ⟨looked, more, none⟩ ∧
        ∀ id, id ∈ ids ∨ id ∈ taken → id ∈ more)
      (fun _ following => ∃ work, following = .within transaction work)
      (.within transaction ⟨looked, taken, none⟩) := by
  induction ids generalizing taken with
  | nil => exact ⟨taken, rfl, by simp⟩
  | cons first rest induction =>
      unfold takeAll
      simp only [Fallible.meets_bind, meets_ask]
      refine ⟨⟨rfl, rfl⟩, fun result => ?_⟩
      cases result with
      | error error => exact ⟨_, rfl⟩
      | ok url =>
          refine (induction (first :: taken)).mono ?_ fun _ _ failed => failed
          rintro urls following ⟨more, rfl, all⟩
          refine ⟨more, rfl, fun id listed => all id ?_⟩
          simp only [List.mem_cons] at listed ⊢
          tauto

theorem deleteReturning_follows (rows : MediaFilter) :
    (deleteReturning transaction rows).Meets mediaProtocol.logic
      (fun _ following => ∃ ids taken,
        following = .within transaction ⟨some (rows, ids), taken, none⟩ ∧
          ∀ id ∈ ids, id ∈ taken)
      (fun _ following => ∃ work, following = .within transaction work)
      (.within transaction ⟨none, [], none⟩) := by
  unfold deleteReturning
  simp only [Fallible.meets_bind, meets_ask]
  refine ⟨⟨rfl, rfl⟩, fun result => ?_⟩
  cases result with
  | error error => exact ⟨_, rfl⟩
  | ok ids =>
      refine (takeAll_follows (some (rows, ids)) [] ids).mono ?_ fun _ _ failed => failed
      rintro urls following ⟨taken, rfl, all⟩
      exact ⟨ids, taken, rfl, fun id listed => all id (.inl listed)⟩

theorem insert_follows {media : NewMedia} {now : Timestamp} (unfilled : work.filled = none)
    (clears : media.role ∈ singularRoles → work.Clears (media.clientId, media.role)) :
    Fallible.Meets (do
      let id ← ask (.insert transaction media now)
      ask (.commit transaction)
      pure id : MediaHandler Uuid) mediaProtocol.logic (fun _ following => following = .outside)
      (fun _ following => ∃ work, following = .within transaction work)
      (.within transaction work) := by
  simp only [Fallible.meets_bind, meets_ask]
  refine ⟨⟨rfl, unfilled, clears⟩, fun result => ?_⟩
  cases result with
  | error error => exact ⟨_, rfl⟩
  | ok id =>
      refine ⟨rfl, fun result => ?_⟩
      cases result with
      | error error => exact ⟨_, rfl⟩
      | ok committed => exact rfl

theorem storeMedia_follows (media : NewMedia) (now : Timestamp) :
    (storeMedia storageRoot media now transaction).Meets mediaProtocol.logic
      (fun _ following => following = .outside)
      (fun _ following => ∃ work, following = .within transaction work)
      (.within transaction ⟨none, [], none⟩) := by
  unfold storeMedia
  split
  · simp only [Fallible.meets_bind]
    refine (deleteReturning_follows _).mono ?_ fun _ _ failed => failed
    rintro urls following ⟨ids, taken, rfl, all⟩
    refine disk_follows (unlinkUrls_onDisk storageRoot urls) (fun _ => ?_) fun _ => ⟨_, rfl⟩
    have inserts := @insert_follows transaction
      ⟨some (.ofRole media.clientId media.role, ids), taken, none⟩ media now rfl
      fun _ => ⟨ids, rfl, all⟩
    simpa only [Fallible.meets_bind] using inserts
  · rename_i plural
    simpa using insert_follows rfl fun singular => (plural singular).elim

theorem onTransaction_follows {work : Nat → MediaHandler Reply}
    (follows : ∀ transaction, (work transaction).Meets mediaProtocol.logic
      (fun _ following => following = .outside)
      (fun _ following => ∃ work, following = .within transaction work)
      (.within transaction ⟨none, [], none⟩)) :
    (onTransaction work).Meets mediaProtocol.logic (fun _ following => following = .outside)
      (fun _ following => following = .outside) .outside := by
  refine (meets_onTransaction work).mpr ⟨trivial, fun result => ?_⟩
  cases result with
  | error error => exact rfl
  | ok transaction =>
      refine (follows transaction).mono (fun _ _ ended => ended) ?_
      rintro error following ⟨work, rfl⟩
      exact ⟨rfl, fun _ => rfl⟩

theorem requireClient_follows (clientId : Uuid) :
    (requireClient clientId).Meets mediaProtocol.logic (fun _ following => following = .outside)
      (fun _ _ => True) .outside := by
  unfold requireClient
  simp only [Fallible.meets_bind, meets_ask]
  refine ⟨trivial, fun result => ?_⟩
  cases result with
  | error error => trivial
  | ok present => exact (Fallible.meets_refuse _ _).mpr ⟨fun _ => trivial, fun _ => rfl⟩

theorem handleMedia_follows (request : MediaRequest) :
    (handleMedia storageRoot request).Meets mediaProtocol.logic (fun _ _ => True) .outside := by
  refine Fallible.meets_outcome.mpr ?_
  cases request with
  | upload clientId multipart revision now =>
      unfold MediaRequest.handler uploadMedia
      simp only [Fallible.meets_bind, Fallible.meets_lift]
      refine (requireClient_follows clientId).mono ?_ fun _ _ _ => trivial
      rintro _ following rfl
      refine ⟨fun _ _ => trivial, fun read _ => ?_⟩
      refine disk_follows (writeFile_onDisk _ _) (fun _ => ?_) fun _ => trivial
      exact (onTransaction_follows fun _ => storeMedia_follows _ now).mono (fun _ _ _ => trivial)
        fun _ _ _ => trivial
  | delete clientId mediaId =>
      unfold MediaRequest.handler deleteMedia
      simp only [Fallible.meets_bind, Fallible.meets_okOr]
      refine (onTransaction_follows fun transaction => ?_).mono ?_ fun _ _ _ => trivial
      · simp only [Fallible.meets_bind]
        refine (deleteReturning_follows _).mono ?_ fun _ _ failed => failed
        rintro urls following ⟨ids, taken, rfl, -⟩
        rw [meets_ask]
        refine ⟨rfl, fun result => ?_⟩
        cases result with
        | error error => exact ⟨_, rfl⟩
        | ok committed => exact rfl
      · rintro urls following rfl
        refine ⟨fun _ => trivial, fun url _ => ?_⟩
        exact disk_follows (unlinkUrl_onDisk storageRoot url) (fun _ => trivial)
          fun _ => trivial

end Programs

end Loontail.Catalog
