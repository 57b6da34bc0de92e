import Mathlib.Logic.Function.Basic

/-! # Files in custody

A file is stored under a key, or an agent has it in hand: the agent is about to store it, or to
unlink it. -/

namespace Concurrency

/-- What an agent has in hand. An informed agent has looked at what its key stores. -/
inductive Duty (Key Path : Type) where
  | free
  | holds (key : Key) (path : Path)
  | informed (key : Key) (path : Path) (old : Option Path)
  | owes (path : Path)
  deriving DecidableEq

namespace Duty

variable {Key Path : Type}

def held : Duty Key Path → Option Path
  | holds _ path => some path
  | informed _ path _ => some path
  | _ => none

def owed : Duty Key Path → Option Path
  | owes path => some path
  | _ => none

def owing : Option Path → Duty Key Path
  | some path => owes path
  | none => free

@[simp] theorem held_owing (path : Option Path) : (owing path : Duty Key Path).held = none := by
  cases path <;> rfl

@[simp] theorem owed_owing (path : Option Path) : (owing path : Duty Key Path).owed = path := by
  cases path <;> rfl

end Duty

/-- `used` are the paths that a file has ever been at. -/
@[ext] structure Custody (Key Path : Type) where
  stored : Key → Option Path
  present : Path → Bool
  used : Path → Prop
  duty : Nat → Duty Key Path

namespace Custody

variable {Key Path : Type}

def charge (custody : Custody Key Path) (agent : Nat) (duty : Duty Key Path) :
    Custody Key Path :=
  { custody with duty := Function.update custody.duty agent duty }

def keep [DecidableEq Key] (custody : Custody Key Path) (key : Key) (path : Option Path) : Custody Key Path :=
  { custody with stored := Function.update custody.stored key path }

def create [DecidableEq Path] (custody : Custody Key Path) (path : Path) : Custody Key Path :=
  { custody with
    present := Function.update custody.present path true
    used := fun other => other = path ∨ custody.used other }

def unlink [DecidableEq Path] (custody : Custody Key Path) (path : Path) : Custody Key Path :=
  { custody with present := Function.update custody.present path false }

/-- A careful agent stores a file only over what it has seen, and unlinks what it owes. -/
inductive Step [DecidableEq Key] [DecidableEq Path] (careful : Prop) (agent : Nat)
    (custody : Custody Key Path) : Custody Key Path → Prop
  | idle : Step careful agent custody custody
  | create {key : Key} {path : Path} (free : custody.duty agent = .free)
      (fresh : ¬custody.used path) :
      Step careful agent custody ((custody.create path).charge agent (.holds key path))
  | learn {key : Key} {path : Path} (holds : custody.duty agent = .holds key path) :
      Step careful agent custody
        (custody.charge agent (.informed key path (custody.stored key)))
  | store {key : Key} {path : Path} {old : Option Path}
      (informed : custody.duty agent = .informed key path old)
      (current : careful → custody.stored key = none ∨ custody.stored key = old) :
      Step careful agent custody
        ((custody.keep key (some path)).charge agent
          (if old = some path then .free else .owing old))
  | take {key : Key} (free : custody.duty agent = .free) :
      Step careful agent custody
        ((custody.keep key none).charge agent (.owing (custody.stored key)))
  | unlink {path : Path} (owes : custody.duty agent = .owes path) :
      Step careful agent custody ((custody.unlink path).charge agent .free)
  | drop {key : Key} (careless : ¬careful) : Step careful agent custody (custody.keep key none)
  | abandon {path : Path} (owes : custody.duty agent = .owes path) (careless : ¬careful) :
      Step careful agent custody (custody.charge agent .free)

structure Discarded (custody : Custody Key Path) (path : Path) : Prop where
  used : custody.used path
  unstored : ∀ key, custody.stored key ≠ some path
  unheld : ∀ agent, (custody.duty agent).held ≠ some path

structure Sound (custody : Custody Key Path) : Prop where
  stored : ∀ key path, custody.stored key = some path →
    custody.used path ∧ custody.present path = true
  apart : ∀ key other path, custody.stored key = some path →
    custody.stored other = some path → key = other
  held : ∀ agent path, (custody.duty agent).held = some path →
    custody.used path ∧ custody.present path = true ∧ ∀ key, custody.stored key ≠ some path
  sole : ∀ agent other path, (custody.duty agent).held = some path →
    (custody.duty other).held = some path → agent = other
  known : ∀ agent key path old, custody.duty agent = .informed key path (some old) →
    custody.used old ∧ (∀ other, custody.stored other = some old → other = key) ∧
      ∀ other, (custody.duty other).held ≠ some old
  owed : ∀ agent path, (custody.duty agent).owed = some path → custody.Discarded path

def Kept (custody : Custody Key Path) : Prop :=
  ∀ path, custody.used path → custody.present path = true →
    (∃ key, custody.stored key = some path) ∨
      ∃ agent, (custody.duty agent).held = some path ∨ (custody.duty agent).owed = some path

/-! ## Every step is sound -/

section Steps

variable {custody : Custody Key Path} {agent : Nat} {careful : Prop}

@[simp] theorem duty_charge (duty : Duty Key Path) (other : Nat) :
    (custody.charge agent duty).duty other = if other = agent then duty else custody.duty other :=
  Function.update_apply custody.duty agent duty other

@[simp] theorem stored_keep [DecidableEq Key] (key other : Key) (path : Option Path) :
    (custody.keep key path).stored other = if other = key then path else custody.stored other :=
  Function.update_apply custody.stored key path other

@[simp] theorem present_create [DecidableEq Path] (path other : Path) :
    (custody.create path).present other = if other = path then true else custody.present other :=
  Function.update_apply custody.present path true other

@[simp] theorem present_unlink [DecidableEq Path] (path other : Path) :
    (custody.unlink path).present other = if other = path then false else custody.present other :=
  Function.update_apply custody.present path false other

/-- An agent takes on what it held already, or nothing, and owes only what is discarded. -/
theorem Sound.charge (sound : custody.Sound) {duty : Duty Key Path}
    (held : ∀ path, duty.held = some path → (custody.duty agent).held = some path)
    (known : ∀ key path old, duty = .informed key path (some old) → custody.used old ∧
      (∀ other, custody.stored other = some old → other = key) ∧
        ∀ other, (custody.duty other).held ≠ some old)
    (owed : ∀ path, duty.owed = some path → custody.Discarded path) :
    (custody.charge agent duty).Sound := by
  have within : ∀ other path, ((custody.charge agent duty).duty other).held = some path →
      (custody.duty other).held = some path := by
    intro other path holds
    rw [duty_charge] at holds
    split at holds
    · rename_i same
      rw [same]
      exact held path holds
    · exact holds
  refine ⟨sound.stored, sound.apart, fun other path holds => sound.held other path (within _ _ holds),
    fun first second path left right => sound.sole first second path (within _ _ left)
      (within _ _ right), fun other key path old informed => ?_, fun other path owes => ?_⟩
  · rw [duty_charge] at informed
    have facts : custody.used old ∧ (∀ other, custody.stored other = some old → other = key) ∧
        ∀ other, (custody.duty other).held ≠ some old := by
      split at informed
      · exact known key path old informed
      · exact sound.known other key path old informed
    exact ⟨facts.1, facts.2.1, fun one holds => facts.2.2 one (within _ _ holds)⟩
  · rw [duty_charge] at owes
    have discarded : custody.Discarded path := by
      split at owes
      · exact owed path owes
      · exact sound.owed other path owes
    exact ⟨discarded.used, discarded.unstored, fun one holds => discarded.unheld one (within _ _ holds)⟩

theorem Sound.drop [DecidableEq Key] (sound : custody.Sound) (key : Key) : (custody.keep key none).Sound := by
  have within : ∀ other path, (custody.keep key none).stored other = some path →
      custody.stored other = some path := by
    intro other path stored
    rw [stored_keep] at stored
    split at stored
    · cases stored
    · exact stored
  refine ⟨fun other path stored => sound.stored other path (within _ _ stored),
    fun left right path first second => sound.apart left right path (within _ _ first)
      (within _ _ second), fun agent path holds => ?_, sound.sole,
    fun agent one path old informed => ?_, fun agent path owes => ?_⟩
  · obtain ⟨used, present, unstored⟩ := sound.held agent path holds
    exact ⟨used, present, fun other stored => unstored other (within _ _ stored)⟩
  · obtain ⟨used, own, unheld⟩ := sound.known agent one path old informed
    exact ⟨used, fun other stored => own other (within _ _ stored), unheld⟩
  · obtain ⟨used, unstored, unheld⟩ := sound.owed agent path owes
    exact ⟨used, fun other stored => unstored other (within _ _ stored), unheld⟩

theorem Sound.unlink [DecidableEq Path] (sound : custody.Sound) {path : Path}
    (discarded : custody.Discarded path) : (custody.unlink path).Sound := by
  have kept : ∀ other, other ≠ path → custody.present other = true →
      (custody.unlink path).present other = true := by
    intro other apart present
    rw [present_unlink, if_neg apart, present]
  refine ⟨fun key other stored => ?_, sound.apart, fun agent other holds => ?_, sound.sole,
    sound.known, fun agent other owes => ?_⟩
  · obtain ⟨used, present⟩ := sound.stored key other stored
    refine ⟨used, kept other ?_ present⟩
    rintro rfl
    exact discarded.unstored key stored
  · obtain ⟨used, present, unstored⟩ := sound.held agent other holds
    refine ⟨used, kept other ?_ present, unstored⟩
    rintro rfl
    exact discarded.unheld agent holds
  · obtain ⟨used, unstored, unheld⟩ := sound.owed agent other owes
    exact ⟨used, unstored, unheld⟩

theorem Sound.create [DecidableEq Path] (sound : custody.Sound) (key : Key) {path : Path}
    (fresh : ¬custody.used path) :
    ((custody.create path).charge agent (.holds key path)).Sound := by
  have kept : ∀ other, custody.present other = true → (custody.create path).present other = true := by
    intro other present
    rw [present_create, present, ite_self]
  have held : ∀ other one,
      (((custody.create path).charge agent (.holds key path)).duty other).held = some one →
        other = agent ∧ one = path ∨ (custody.duty other).held = some one := by
    intro other one holds
    rw [duty_charge] at holds
    split at holds
    · rename_i same
      exact .inl ⟨same, (Option.some.inj holds).symm⟩
    · exact .inr holds
  have old : ∀ other one, (custody.duty other).held = some one → one ≠ path := by
    rintro other one holds rfl
    exact fresh (sound.held other one holds).1
  -- a path that was used is not the new one
  have unheld : ∀ one, custody.used one → (∀ other, (custody.duty other).held ≠ some one) →
      ∀ other, (((custody.create path).charge agent (.holds key path)).duty other).held ≠
        some one := by
    intro one used nobody other holds
    rcases held other one holds with ⟨-, rfl⟩ | before
    · exact fresh used
    · exact nobody other before
  refine ⟨fun other one stored => ?_, sound.apart, fun other one holds => ?_,
    fun left right one first second => ?_, fun other key' path' one informed => ?_,
    fun other one owes => ?_⟩
  · obtain ⟨used, present⟩ := sound.stored other one stored
    exact ⟨.inr used, kept one present⟩
  · rcases held other one holds with ⟨-, rfl⟩ | before
    · refine ⟨.inl rfl, ?_, fun key stored => fresh (sound.stored key one stored).1⟩
      change (custody.create one).present one = true
      rw [present_create, if_pos rfl]
    · obtain ⟨used, present, unstored⟩ := sound.held other one before
      exact ⟨.inr used, kept one present, unstored⟩
  · rcases held left one first with ⟨rfl, rfl⟩ | before
    · rcases held right one second with ⟨rfl, -⟩ | earlier
      · rfl
      · exact (old right one earlier rfl).elim
    · rcases held right one second with ⟨rfl, rfl⟩ | earlier
      · exact (old left one before rfl).elim
      · exact sound.sole left right one before earlier
  · rw [duty_charge] at informed
    split at informed
    · cases informed
    · obtain ⟨used, own, nobody⟩ := sound.known other key' path' one informed
      exact ⟨.inr used, own, unheld one used nobody⟩
  · rw [duty_charge] at owes
    split at owes
    · cases owes
    · obtain ⟨used, unstored, nobody⟩ := sound.owed other one owes
      exact ⟨.inr used, unstored, unheld one used nobody⟩

theorem Sound.store [DecidableEq Key] [DecidableEq Path] (sound : custody.Sound) {key : Key}
    {path : Path} {old : Option Path} (informed : custody.duty agent = .informed key path old) :
    ((custody.keep key (some path)).charge agent
      (if old = some path then .free else .owing old)).Sound := by
  have own : (custody.duty agent).held = some path := by
    rw [informed]
    rfl
  obtain ⟨usedPath, presentPath, unstoredPath⟩ := sound.held agent path own
  have stored : ∀ other one,
      ((custody.keep key (some path)).stored other = some one →
        other = key ∧ one = path ∨ other ≠ key ∧ custody.stored other = some one) := by
    intro other one holds
    rw [stored_keep] at holds
    split at holds
    · rename_i same
      exact .inl ⟨same, (Option.some.inj holds).symm⟩
    · rename_i apart
      exact .inr ⟨apart, holds⟩
  -- the agent holds nothing any more
  have held : ∀ other one, (((custody.keep key (some path)).charge agent
      (if old = some path then .free else .owing old)).duty other).held = some one →
        other ≠ agent ∧ (custody.duty other).held = some one := by
    intro other one holds
    rw [duty_charge] at holds
    split at holds
    · split at holds
      · cases holds
      · rw [Duty.held_owing] at holds
        cases holds
    · rename_i apart
      exact ⟨apart, holds⟩
  have unstored : ∀ one, one ≠ path → (∀ other, other ≠ key → custody.stored other ≠ some one) →
      ∀ other, (custody.keep key (some path)).stored other ≠ some one := by
    intro one apart nowhere other holds
    rcases stored other one holds with ⟨-, same⟩ | ⟨elsewhere, before⟩
    · exact apart same
    · exact nowhere other elsewhere before
  have unheldPath : ∀ one, (∀ other, (custody.duty other).held ≠ some one) → one ≠ path := by
    rintro one nobody rfl
    exact nobody agent own
  refine ⟨fun other one holds => ?_, fun left right one first second => ?_,
    fun other one holds => ?_, fun left right one first second => ?_,
    fun other key' path' one known => ?_, fun other one owes => ?_⟩
  · rcases stored other one holds with ⟨-, rfl⟩ | ⟨-, before⟩
    · exact ⟨usedPath, presentPath⟩
    · exact sound.stored other one before
  · rcases stored left one first with ⟨rfl, rfl⟩ | ⟨-, before⟩
    · rcases stored right one second with ⟨rfl, -⟩ | ⟨-, earlier⟩
      · rfl
      · exact (unstoredPath right earlier).elim
    · rcases stored right one second with ⟨-, rfl⟩ | ⟨-, earlier⟩
      · exact (unstoredPath left before).elim
      · exact sound.apart left right one before earlier
  · obtain ⟨apart, before⟩ := held other one holds
    obtain ⟨used, present, nowhere⟩ := sound.held other one before
    refine ⟨used, present, unstored one ?_ fun key' _ => nowhere key'⟩
    rintro rfl
    exact apart (sound.sole other agent one before own)
  · exact sound.sole left right one (held left one first).2 (held right one second).2
  · rw [duty_charge] at known
    split at known
    · split at known
      · cases known
      · cases old <;> cases known
    · obtain ⟨used, only, nobody⟩ := sound.known other key' path' one known
      refine ⟨used, fun place holds => ?_, fun place holds => nobody place (held place one holds).2⟩
      rcases stored place one holds with ⟨-, same⟩ | ⟨-, before⟩
      · exact (unheldPath one nobody same).elim
      · exact only place before
  · rw [duty_charge] at owes
    split at owes
    · split at owes
      · cases owes
      · rename_i differs
        rw [Duty.owed_owing] at owes
        subst owes
        obtain ⟨used, only, nobody⟩ := sound.known agent key path one informed
        refine ⟨used, unstored one (fun same => differs (congrArg some same)) ?_, ?_⟩
        · exact fun place elsewhere holds => elsewhere (only place holds)
        · exact fun place holds => nobody place (held place one holds).2
    · obtain ⟨used, nowhere, nobody⟩ := sound.owed other one owes
      exact ⟨used, unstored one (unheldPath one nobody) fun place _ => nowhere place,
        fun place holds => nobody place (held place one holds).2⟩

theorem Sound.learn (sound : custody.Sound) {key : Key} {path : Path}
    (holds : custody.duty agent = .holds key path) :
    (custody.charge agent (.informed key path (custody.stored key))).Sound := by
  refine sound.charge (fun other held => ?_) (fun other one old same => ?_)
    fun other owed => by cases owed
  · rw [holds]
    exact held
  · obtain ⟨rfl, rfl, stored⟩ := Duty.informed.inj same
    refine ⟨(sound.stored key old stored).1, fun place before => ?_, fun place held => ?_⟩
    · exact sound.apart place key old before stored
    · exact (sound.held place old held).2.2 key stored

theorem Sound.take [DecidableEq Key] (sound : custody.Sound) (key : Key) :
    ((custody.keep key none).charge agent (.owing (custody.stored key))).Sound := by
  refine (sound.drop key).charge (fun path held => ?_) (fun other path old same => ?_)
    fun path owed => ?_
  · rw [Duty.held_owing] at held
    cases held
  · cases stored : custody.stored key with
    | none =>
        rw [stored] at same
        cases same
    | some path =>
        rw [stored] at same
        cases same
  · rw [Duty.owed_owing] at owed
    refine ⟨(sound.stored key path owed).1, fun place stored => ?_, fun place held => ?_⟩
    · rw [stored_keep] at stored
      split at stored
      · cases stored
      · rename_i apart
        exact apart (sound.apart place key path stored owed)
    · exact (sound.held place path held).2.2 key owed

theorem Sound.abandon (sound : custody.Sound) : (custody.charge agent .free).Sound :=
  sound.charge (fun path held => by cases held) (fun key path old same => by cases same)
    fun path owed => by cases owed

variable {after : Custody Key Path}

theorem Step.sound [DecidableEq Key] [DecidableEq Path] (step : Step careful agent custody after) (sound : custody.Sound) :
    after.Sound := by
  cases step with
  | idle => exact sound
  | create free fresh => exact sound.create _ fresh
  | learn holds => exact sound.learn holds
  | store informed current => exact sound.store informed
  | take free => exact sound.take _
  | @unlink path owes =>
      have owed : (custody.duty agent).owed = some path := by
        rw [owes]
        rfl
      exact (sound.unlink (sound.owed agent path owed)).abandon
  | drop careless => exact sound.drop _
  | abandon owes careless => exact sound.abandon

/-! ## Careful steps forget no file -/

theorem kept_of {path : Path} (kept : (∃ key, custody.stored key = some path) ∨
      ∃ other, (custody.duty other).held = some path ∨ (custody.duty other).owed = some path)
    (stored : ∀ key, custody.stored key = some path → after.stored key = some path ∨
      (after.duty agent).owed = some path)
    (others : ∀ other, other ≠ agent → after.duty other = custody.duty other)
    (own : (custody.duty agent).held = some path ∨ (custody.duty agent).owed = some path →
      (∃ key, after.stored key = some path) ∨
        (after.duty agent).held = some path ∨ (after.duty agent).owed = some path) :
    (∃ key, after.stored key = some path) ∨
      ∃ other, (after.duty other).held = some path ∨ (after.duty other).owed = some path := by
  rcases kept with ⟨key, here⟩ | ⟨other, here⟩
  · exact (stored key here).imp (fun there => ⟨key, there⟩) fun owed => ⟨agent, .inr owed⟩
  · by_cases same : other = agent
    · subst same
      exact (own here).imp_right fun there => ⟨other, there⟩
    · refine .inr ⟨other, ?_⟩
      rw [others other same]
      exact here

theorem Step.kept [DecidableEq Key] [DecidableEq Path] (step : Step True agent custody after)
    (kept : custody.Kept) : after.Kept := by
  have others (duty : Duty Key Path) (middle : Custody Key Path)
      (same : middle.duty = custody.duty) (other : Nat) (apart : other ≠ agent) :
      (middle.charge agent duty).duty other = custody.duty other := by
    rw [duty_charge, if_neg apart, same]
  intro path used present
  cases step with
  | idle => exact kept path used present
  | @create key new free fresh =>
      rcases used with rfl | before
      · refine .inr ⟨agent, .inl ?_⟩
        rw [duty_charge, if_pos rfl]
        rfl
      · have apart : path ≠ new := by
          rintro rfl
          exact fresh before
        have there : custody.present path = true := by
          change (custody.create new).present path = true at present
          rwa [present_create, if_neg apart] at present
        refine kept_of (kept path before there) (fun key stored => .inl stored)
          (others _ _ rfl) ?_
        rw [free]
        rintro (none | none) <;> cases none
  | @learn key new holds =>
      refine kept_of (kept path used present) (fun key stored => .inl stored) (others _ _ rfl) ?_
      rw [duty_charge, if_pos rfl, holds]
      exact .inr
  | @store key new old informed current =>
      refine kept_of (kept path used present) (fun place here => ?_) (others _ _ rfl) ?_
      · change (custody.keep key (some new)).stored place = some path ∨ _
        rw [stored_keep, duty_charge, if_pos rfl]
        split
        · rename_i same
          subst same
          rcases current trivial with none | seen
          · rw [none] at here
            cases here
          · rw [seen] at here
            rw [here]
            split
            · rename_i replaced
              exact .inl replaced.symm
            · exact .inr rfl
        · exact .inl here
      · rw [informed]
        rintro (held | none)
        · refine .inl ⟨key, ?_⟩
          change (custody.keep key (some new)).stored key = some path
          rw [stored_keep, if_pos rfl]
          exact held
        · cases none
  | @take key free =>
      refine kept_of (kept path used present) (fun place here => ?_) (others _ _ rfl) ?_
      · change (custody.keep key none).stored place = some path ∨ _
        rw [stored_keep, duty_charge, if_pos rfl, Duty.owed_owing]
        split
        · rename_i same
          exact .inr (same ▸ here)
        · exact .inl here
      · rw [free]
        rintro (none | none) <;> cases none
  | @unlink gone owes =>
      change (custody.unlink gone).present path = true at present
      rw [present_unlink] at present
      split at present
      · cases present
      · rename_i apart
        refine kept_of (kept path used present) (fun place here => .inl here) (others _ _ rfl) ?_
        rw [owes]
        rintro (none | same)
        · cases none
        · exact (apart (Option.some.inj same).symm).elim
  | drop careless => exact (careless trivial).elim
  | abandon owes careless => exact (careless trivial).elim

end Steps

/-- When all is done, the files are those that the keys store. -/
theorem Sound.settled {custody : Custody Key Path} (sound : custody.Sound) (kept : custody.Kept)
    (free : ∀ agent, custody.duty agent = .free) {path : Path} (used : custody.used path) :
    custody.present path = true ↔ ∃ key, custody.stored key = some path := by
  constructor
  · intro present
    rcases kept path used present with stored | ⟨agent, held | owed⟩
    · exact stored
    · rw [free agent] at held
      cases held
    · rw [free agent] at owed
      cases owed
  · rintro ⟨key, stored⟩
    exact (sound.stored key path stored).2

end Custody

end Concurrency
