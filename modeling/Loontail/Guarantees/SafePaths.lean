import Loontail.Bundles.Extraction
import Loontail.Concurrency.Turn
import Loontail.Guarantees.RecordedHashes

/-! # Paths that stay in their folder

A raw path is accepted when it is relative, has no `..` and names something. What it
normalizes to leads below any folder, and an archive is extracted along such paths. -/

namespace Loontail.Bundles

open Concurrency Disk Text

/-! ## What is accepted -/

theorem normalParts_ok {field : String} {given : List Component} :
    (∃ parts, normalParts field given = .ok parts) ↔ .parentDir ∉ given := by
  induction given with
  | nil => exact ⟨fun _ => List.not_mem_nil, fun _ => ⟨[], rfl⟩⟩
  | cons first rest induction =>
      cases first with
      | curDir => simpa [normalParts] using induction
      | parentDir => simp [normalParts]
      | normal segment =>
          rw [List.mem_cons, not_or, ← induction]
          cases gathered : normalParts field rest <;> simp [normalParts, gathered]

theorem normalParts_mem {field : String} {given : List Component} {parts : List String}
    (gathered : normalParts field given = .ok parts) {part : String}
    (member : .normal part ∈ given) : part ∈ parts := by
  induction given generalizing parts with
  | nil => cases member
  | cons first rest induction =>
      cases first with
      | curDir => exact induction gathered (by simpa using member)
      | parentDir => cases gathered
      | normal segment =>
          rcases continued : normalParts field rest with error | later
          · simp [normalParts, continued] at gathered
          · simp only [normalParts, continued, Except.ok.injEq] at gathered
            subst gathered
            rcases List.mem_cons.mp member with same | within
            · cases same
              exact List.mem_cons_self
            · exact List.mem_cons_of_mem _ (induction continued within)

theorem normalizeRelativePath_accepts {raw field : String} :
    (∃ path, normalizeRelativePath raw field = .ok path) ↔
      (unify raw).toList.head? ≠ some '/' ∧ .parentDir ∉ components (unify raw) ∧
        ∃ segment, .normal segment ∈ components (unify raw) := by
  unfold normalizeRelativePath
  simp only
  by_cases rooted : (unify raw).toList.head? = some '/'
  · simp [rooted]
  · rw [if_neg rooted, ← @normalParts_ok field]
    cases gathered : normalParts field (components (unify raw)) with
    | error error => simp
    | ok parts =>
        cases parts with
        | nil =>
            have none : ∀ segment, .normal segment ∉ components (unify raw) :=
              fun segment member => List.not_mem_nil (normalParts_mem gathered member)
            simp [none]
        | cons part rest =>
            have named := mem_normalParts gathered List.mem_cons_self
            exact ⟨fun _ => ⟨rooted, ⟨_, rfl⟩, part, named⟩, fun _ => ⟨_, rfl⟩⟩

/-! ## Where paths lead -/

/-- Where a path leads from a folder: `.` stays and `..` goes up. -/
def resolve (folder : List String) : List String → List String
  | [] => folder
  | part :: rest =>
      if part = "" || part = "." then resolve folder rest
      else if part = ".." then resolve folder.dropLast rest
      else resolve (folder ++ [part]) rest

theorem resolve_append (folder first second : List String) :
    resolve folder (first ++ second) = resolve (resolve folder first) second := by
  induction first generalizing folder with
  | nil => rfl
  | cons part rest induction =>
      simp only [List.cons_append, resolve]
      split
      · exact induction folder
      · split
        · exact induction _
        · exact induction _

theorem PlainNames.resolve {parts : List String} (plain : PlainNames parts)
    (folder : List String) : resolve folder parts = folder ++ parts := by
  induction parts generalizing folder with
  | nil => exact (List.append_nil folder).symm
  | cons part rest induction =>
      obtain ⟨⟨safe, -⟩, later⟩ := List.forall_mem_cons.mp plain
      simp only [Bundles.resolve, safe.filled, safe.notHere, safe.notUp, decide_false,
        Bool.or_self, Bool.false_eq_true, if_false]
      rw [induction later, List.append_assoc, List.singleton_append]

theorem Normalized.resolve {path : String} (normalized : Normalized path)
    (folder root : List String) :
    resolve folder (joinFiles root path) = Bundles.resolve folder root ++ segments path := by
  rw [joinFiles, resolve_append, normalized.plainNames.resolve]

/-! ## Extraction -/

/-- Outside the folder all is as before, but that folders on the way to it are made. -/
def OnlyWithin (folder : List String) (before after : Builds) : Prop :=
  ∀ path, ¬folder <+: path → after.find path = before.find path ∨
    path <+: folder ∧ before.find path = none ∧ after.find path = some .folder

theorem OnlyWithin.refl (folder : List String) (disk : Builds) : OnlyWithin folder disk disk :=
  fun _ _ => .inl rfl

theorem OnlyWithin.trans {folder : List String} {before middle after : Builds}
    (first : OnlyWithin folder before middle) (second : OnlyWithin folder middle after) :
    OnlyWithin folder before after := by
  intro path outside
  rcases second path outside with same | ⟨above, missing, made⟩
  · rw [same]
    exact first path outside
  · rcases first path outside with same | ⟨-, -, already⟩
    · exact .inr ⟨above, same ▸ missing, made⟩
    · rw [already] at missing
      cases missing

theorem DiskCall.Inside.onlyWithin {folder : List String} {call : DiskCall}
    (inside : call.Inside folder) (disk : Builds) :
    OnlyWithin folder disk (call.perform disk).2 := by
  intro path outside
  by_cases above : path <+: folder
  · have other : ∀ {inner : List String}, folder <+: inner → path ≠ inner := by
      rintro inner within rfl
      exact outside within
    cases call with
    | createDirAll inner =>
        rcases DiskCall.settle_cases disk (disk.createDirAll inner) with
          ⟨tree, made, settled⟩ | ⟨error, -, settled⟩
        · have performed : ((DiskCall.createDirAll inner).perform disk).2 = tree :=
            congrArg Prod.snd settled
          rw [performed]
          cases found : disk.find path with
          | some node => exact .inl ((Tree.createDirAll_keeps made (by rw [found]; rfl)).trans found)
          | none =>
              refine .inr ⟨above, rfl, ?_⟩
              rw [(Tree.createDirAll_ok made).1, Tree.withFolders,
                if_pos (above.trans inside.within)]
        · have performed : ((DiskCall.createDirAll inner).perform disk).2 = disk :=
            congrArg Prod.snd settled
          rw [performed]
          exact .inl rfl
    | create inner =>
        exact .inl (settle_find fun after made => Tree.writeFile_keeps made (other inside.within))
    | append inner data =>
        exact .inl (settle_find fun after made => appended_keeps made (other inside.within))
    | _ => exact inside.elim
  · exact .inl (inside.apart above outside)

def Operation.Extracting (archive dest : List String) (operation : Operation) : Prop :=
  operation = .disk (.read archive) ∨ operation.Inside dest

theorem extractZip_takes (state : State) (archive dest : List String) :
    Takes (Operation.Extracting archive dest) (extractZip state archive dest) :=
  takes_bind (takes_io _ (.inl rfl)) fun bytes =>
    Takes.mono (unpackInto_within state dest bytes) fun _ => .inr

theorem extractZip_onlyWithin {state : State} {archive dest : List String} {index : Nat}
    {faults : List Bool} {before after : Service} {history later : List (Event registry)}
    {outcome : Except AppError Unit}
    (executed : (extractZip state archive dest).run.execute index faults before history =
      some (outcome, after, later)) :
    after.database = before.database ∧ OnlyWithin dest before.disk after.disk := by
  refine Process.execute_everyWay (@Process.Uses.everyWay registry (Except AppError Unit)
    (Operation.Extracting archive dest) (fun service : Service =>
      service.database = before.database ∧ OnlyWithin dest before.disk service.disk) ?_ _
    (extractZip_takes state archive dest).uses before ⟨rfl, OnlyWithin.refl dest before.disk⟩) executed
  intro middle operation result next allowed kept occurs
  rcases allowed with rfl | inside
  · rcases occurs_disk occurs with ⟨-, rfl⟩ | ⟨-, rfl⟩
    · exact kept
    · exact kept
  · cases operation with
    | disk call =>
        rcases occurs_disk occurs with ⟨-, rfl⟩ | ⟨-, rfl⟩
        · exact ⟨kept.1, kept.2.trans (DiskCall.Inside.onlyWithin inside middle.disk)⟩
        · exact kept
    | _ => exact inside.elim

/-! ## Safety -/

theorem paths_safe :
    (∀ raw field : String, (∃ path, normalizeRelativePath raw field = .ok path) ↔
      (unify raw).toList.head? ≠ some '/' ∧ .parentDir ∉ components (unify raw) ∧
        ∃ segment, .normal segment ∈ components (unify raw)) ∧
    (∀ raw field path : String, normalizeRelativePath raw field = .ok path →
      (∀ segment ∈ segments path,
        segment ≠ "" ∧ segment ≠ "." ∧ segment ≠ ".." ∧ '\\' ∉ segment.toList) ∧
      (∀ again : String, normalizeRelativePath path again = .ok path) ∧
      ∀ folder root : List String,
        resolve folder (joinFiles root path) = resolve folder root ++ segments path) ∧
    ∀ (state : State) (archive dest : List String) (index : Nat) (faults : List Bool)
      (before after : Service) (history later : List (Event registry))
      (outcome : Except AppError Unit),
      (extractZip state archive dest).run.execute index faults before history =
        some (outcome, after, later) →
      after.database = before.database ∧ OnlyWithin dest before.disk after.disk := by
  refine ⟨fun raw field => normalizeRelativePath_accepts, ?_, ?_⟩
  · intro raw field path accepted
    have normalized := normalized_of_ok accepted
    refine ⟨fun segment member => ?_, normalized.accepted, normalized.resolve⟩
    have safe := normalized segment member
    exact ⟨safe.filled, safe.notHere, safe.notUp, safe.plain⟩
  · intro state archive dest index faults before after history later outcome executed
    exact extractZip_onlyWithin executed

def slippingArchive : List ZipSlot :=
  [.ok ⟨"//mods/./a.jar", false, 1, [65], none⟩, .ok ⟨"mods/../../b", false, 1, [66], none⟩]

def slippingState : State := { shownState with openZip := fun _ => .ok slippingArchive }

def stagedArchive : Service :=
  { bareBuild "pack" with
    disk := ((DiskCall.create ["pack", "a.zip"]).perform (bareBuild "pack").disk).2 }

theorem paths_safe_slipping :
    (∃ path, normalizeRelativePath "mods\\./a.jar" "p" = .ok path) ∧
      resolve [] (joinFiles ["x", "..", "y"] "mods/a.jar") = ["y", "mods", "a.jar"] ∧
      ∃ after later, (extractZip slippingState ["pack", "a.zip"] (filesPath "pack")).run.execute 0
          [] stagedArchive [] = some (.error (zipSlip "mods/../../b"), after, later) ∧
        OnlyWithin (filesPath "pack") stagedArchive.disk after.disk := by
  obtain ⟨accepts, leads, extracts⟩ := paths_safe
  have refused : ((extractZip slippingState ["pack", "a.zip"] (filesPath "pack")).run.execute 0 []
      stagedArchive []).map Prod.fst = some (.error (zipSlip "mods/../../b")) := by
    decide +kernel
  obtain ⟨⟨outcome, after, later⟩, executed, same⟩ := Option.map_eq_some_iff.mp refused
  cases same
  refine ⟨(accepts _ _).mpr ⟨by decide +kernel, by decide +kernel, "mods", by decide +kernel⟩, ?_,
    after, later, executed, (extracts _ _ _ _ _ _ _ _ _ _ executed).2⟩
  exact ((leads "mods/a.jar" "p" "mods/a.jar" (by decide +kernel)).2.2 [] ["x", "..", "y"]).trans
    (by decide +kernel)

end Loontail.Bundles
