import Loontail.Concurrency.Run
import Loontail.Core.Realtime
import Mathlib.Algebra.BigOperators.Group.List.Basic
import Mathlib.Data.UInt

/-! # The tunnel of a relay

A tunnel has two directions, each a loop that takes what one socket yields and hands it to the
other. The first loop that ends takes the other down, wherever that one is. All tunnels count
into one counter. -/

namespace Loontail.Network.Pipe

open Concurrency

/-! ## Frames -/

inductive Message where
  | text (text : String)
  | binary (data : List UInt8)
  | ping (data : List UInt8)
  | pong (data : List UInt8)
  | close (reason : Option (Nat × String))
  deriving DecidableEq, Repr

inductive Inbound where
  | message (message : Message)
  | broken
  deriving DecidableEq, Repr

inductive Forward where
  | send (message : Message)
  | skip
  | stop
  deriving DecidableEq, Repr

def classify : Message → Forward × UInt64
  | .binary data => (.send (.binary data), .ofNat data.length)
  | .text text => (.send (.text text), 0)
  | .close _ => (.stop, 0)
  | .ping _ | .pong _ => (.skip, 0)

/-! ## One direction -/

/-- Where a loop is. After a refused frame it knows which one it lost. -/
inductive Stage where
  | receiving
  | sending (message : Message)
  | closing (lost : Option Message)
  | ended (lost : Option Message)
  deriving DecidableEq, Repr

/-- What the stream has yielded and what it still yields; what the other socket has taken. -/
structure Direction where
  taken : List Inbound
  inbox : List Inbound
  stage : Stage
  outbox : List Message
  deriving DecidableEq, Repr

namespace Direction

def start (script : List Inbound) : Direction := ⟨[], script, .receiving, []⟩

def receive (direction : Direction) : Direction × UInt64 :=
  match direction.inbox with
  | .message message :: inbox =>
      let read := { direction with taken := direction.taken ++ [.message message], inbox }
      match classify message with
      | (.send frame, size) => ({ read with stage := .sending frame }, size)
      | (.skip, size) => (read, size)
      | (.stop, size) => ({ read with stage := .closing none }, size)
  | .broken :: inbox =>
      ({ direction with
          taken := direction.taken ++ [.broken], inbox, stage := .closing none }, 0)
  | [] => ({ direction with stage := .closing none }, 0)

/-- `accepts` is whether the other socket takes what it is sent. -/
def advance (direction : Direction) (accepts : Bool) : Direction × UInt64 :=
  match direction.stage with
  | .receiving => direction.receive
  | .sending frame =>
      if accepts then
        ({ direction with stage := .receiving, outbox := direction.outbox ++ [frame] }, 0)
      else ({ direction with stage := .closing (some frame) }, 0)
  | .closing lost =>
      ({ direction with
          stage := .ended lost
          outbox := direction.outbox ++ if accepts then [.close none] else [] }, 0)
  | .ended _ => (direction, 0)

def hasEnded (direction : Direction) : Bool :=
  match direction.stage with
  | .ended _ => true
  | _ => false

def delivered (direction : Direction) : List Message :=
  direction.outbox.filter (· ≠ .close none)

end Direction

/-! ## Tunnels -/

structure Tunnel where
  host : Direction
  guest : Direction
  deriving DecidableEq, Repr

namespace Tunnel

def direction (tunnel : Tunnel) : RelayRole → Direction
  | .host => tunnel.host
  | .guest => tunnel.guest

def set (tunnel : Tunnel) (direction : Direction) : RelayRole → Tunnel
  | .host => { tunnel with host := direction }
  | .guest => { tunnel with guest := direction }

def hasEnded (tunnel : Tunnel) : Bool := tunnel.host.hasEnded || tunnel.guest.hasEnded

end Tunnel

structure Relays where
  tunnels : List Tunnel
  bytesForwarded : UInt64
  deriving DecidableEq, Repr

inductive Move where
  | open_ (host guest : List Inbound)
  | advance (index : Nat) (role : RelayRole) (accepts : Bool)
  deriving DecidableEq, Repr

/-- `tokio::select!`: a loop goes on while neither has ended. -/
def Relays.move (relays : Relays) : Move → Option Relays
  | .open_ host guest =>
      some { relays with tunnels := relays.tunnels ++ [⟨.start host, .start guest⟩] }
  | .advance index role accepts => do
      let tunnel ← relays.tunnels[index]?
      if tunnel.hasEnded then none
      else
        let (direction, size) := (tunnel.direction role).advance accepts
        some
          { tunnels := relays.tunnels.set index (tunnel.set direction role)
            bytesForwarded := relays.bytesForwarded + size }

/-! ## What is to pass -/

def passes : List Inbound → List Message
  | .message (.binary data) :: rest => .binary data :: passes rest
  | .message (.text text) :: rest => .text text :: passes rest
  | .message (.ping _) :: rest | .message (.pong _) :: rest => passes rest
  | .message (.close _) :: _ | .broken :: _ | [] => []

def size : List Inbound → Nat
  | .message (.binary data) :: rest => data.length + size rest
  | _ :: rest => size rest
  | [] => 0

def goesOn (inbound : List Inbound) : Bool := inbound.all fun
  | .message (.close _) | .broken => false
  | _ => true

section Inbound

variable {taken more : List Inbound}

theorem passes_append (on : goesOn taken = true) :
    passes (taken ++ more) = passes taken ++ passes more := by
  induction taken with
  | nil => rfl
  | cons first rest induction =>
      rw [goesOn, List.all_cons, Bool.and_eq_true] at on
      cases first with
      | broken => cases on.1
      | message message =>
          cases message with
          | text text => exact congrArg _ (induction on.2)
          | binary data => exact congrArg _ (induction on.2)
          | ping data => exact induction on.2
          | pong data => exact induction on.2
          | close reason => cases on.1

theorem passes_append_of_stops (stops : goesOn taken = false) :
    passes (taken ++ more) = passes taken := by
  induction taken with
  | nil => cases stops
  | cons first rest induction =>
      cases first with
      | broken => rfl
      | message message =>
          cases message with
          | text text => exact congrArg (List.cons _) (induction stops)
          | binary data => exact congrArg (List.cons _) (induction stops)
          | ping data => exact induction stops
          | pong data => exact induction stops
          | close reason => rfl

theorem close_not_passes (inbound : List Inbound) : Message.close none ∉ passes inbound := by
  induction inbound using passes.induct with
  | case1 data rest induction => simpa [passes] using induction
  | case2 text rest induction => simpa [passes] using induction
  | case3 data rest induction => simpa [passes] using induction
  | case4 data rest induction => simpa [passes] using induction
  | case5 => exact List.not_mem_nil
  | case6 => exact List.not_mem_nil
  | case7 => exact List.not_mem_nil

theorem size_append : size (taken ++ more) = size taken + size more := by
  induction taken using size.induct with
  | case1 data rest induction => rw [List.cons_append, size, size, induction, Nat.add_assoc]
  | case2 first rest plain induction =>
      rw [List.cons_append, size, size, induction]
      · exact plain
      · exact plain
  | case3 => exact (Nat.zero_add _).symm

theorem goesOn_append : goesOn (taken ++ more) = (goesOn taken && goesOn more) := List.all_append

end Inbound

/-! ## What one step keeps -/

def Carries (direction : Direction) : Prop :=
  match direction.stage with
  | .receiving => direction.outbox = passes direction.taken ∧ goesOn direction.taken = true
  | .sending frame =>
      direction.outbox ++ [frame] = passes direction.taken ∧ goesOn direction.taken = true
  | .closing lost =>
      direction.outbox ++ lost.toList = passes direction.taken ∧
        (lost = none → passes (direction.taken ++ direction.inbox) = passes direction.taken)
  | .ended lost => ∃ frames,
      (direction.outbox = frames ∨ direction.outbox = frames ++ [.close none]) ∧
        frames ++ lost.toList = passes direction.taken ∧
        (lost = none → passes (direction.taken ++ direction.inbox) = passes direction.taken)

section Steps

variable {direction : Direction} {accepts : Bool}

theorem Carries.receive (carries : Carries direction) (receiving : direction.stage = .receiving) :
    Carries direction.receive.1 := by
  rw [Carries, receiving] at carries
  obtain ⟨same, on⟩ := carries
  have grows : ∀ inbound, passes (direction.taken ++ [inbound]) =
      direction.outbox ++ passes [inbound] := fun inbound => by rw [passes_append on, same]
  have further : ∀ {inbound}, goesOn [inbound] = true →
      goesOn (direction.taken ++ [inbound]) = true := fun more => by rw [goesOn_append, on, more]; rfl
  have stopped : ∀ {inbound rest}, goesOn [inbound] = false →
      passes (direction.taken ++ [inbound] ++ rest) = passes (direction.taken ++ [inbound]) :=
    fun stops => passes_append_of_stops (by rw [goesOn_append, on, stops]; rfl)
  unfold Direction.receive
  split
  · rename_i message inbox yielded
    cases message with
    | binary data =>
        simp only [classify, Carries]
        exact ⟨by rw [grows]; rfl, further rfl⟩
    | text text =>
        simp only [classify, Carries]
        exact ⟨by rw [grows]; rfl, further rfl⟩
    | ping data =>
        simp only [classify, Carries, receiving]
        exact ⟨((grows _).trans (List.append_nil _)).symm, further rfl⟩
    | pong data =>
        simp only [classify, Carries, receiving]
        exact ⟨((grows _).trans (List.append_nil _)).symm, further rfl⟩
    | close reason =>
        simp only [classify, Carries]
        exact ⟨by rw [grows]; rfl, fun _ => stopped rfl⟩
  · simp only [Carries]
    exact ⟨by rw [grows]; rfl, fun _ => stopped rfl⟩
  · rename_i empty
    simp only [Carries, empty]
    exact ⟨(List.append_nil _).trans same, fun _ => by rw [List.append_nil]⟩

theorem Carries.advance (carries : Carries direction) :
    Carries (direction.advance accepts).1 := by
  unfold Direction.advance
  split
  · rename_i receiving
    exact carries.receive receiving
  · rename_i frame sending
    rw [Carries, sending] at carries
    cases accepts with
    | true => exact carries
    | false => exact ⟨carries.1, fun nothing => by cases nothing⟩
  · rename_i lost closing
    rw [Carries, closing] at carries
    refine ⟨direction.outbox, ?_, carries.1, carries.2⟩
    cases accepts
    · exact .inl (List.append_nil _)
    · exact .inr rfl
  · exact carries

theorem advance_script :
    (direction.advance accepts).1.taken ++ (direction.advance accepts).1.inbox =
      direction.taken ++ direction.inbox := by
  unfold Direction.advance
  split
  · unfold Direction.receive
    split
    · rename_i message inbox yielded
      rw [yielded]
      cases message <;> exact List.append_assoc _ [_] _
    · rename_i inbox yielded
      rw [yielded]
      exact List.append_assoc _ [_] _
    · rfl
  · cases accepts <;> rfl
  · rfl
  · rfl

theorem advance_size :
    UInt64.ofNat (size (direction.advance accepts).1.taken) =
      .ofNat (size direction.taken) + (direction.advance accepts).2 := by
  have none : UInt64.ofNat (size direction.taken) = .ofNat (size direction.taken) + 0 :=
    (UInt64.add_zero _).symm
  unfold Direction.advance
  split
  · unfold Direction.receive
    split
    · rename_i message inbox yielded
      cases message with
      | binary data => simp only [classify, size_append, size, Nat.add_zero, UInt64.ofNat_add]
      | text text => simp only [classify, size_append, size, Nat.add_zero, UInt64.add_zero]
      | ping data => simp only [classify, size_append, size, Nat.add_zero, UInt64.add_zero]
      | pong data => simp only [classify, size_append, size, Nat.add_zero, UInt64.add_zero]
      | close reason => simp only [classify, size_append, size, Nat.add_zero, UInt64.add_zero]
    · simp only [size_append, size, Nat.add_zero, UInt64.add_zero]
    · exact none
  · cases accepts <;> exact none
  · exact none
  · exact none

end Steps

/-! ## Runs -/

def Direction.script (direction : Direction) : List Inbound := direction.taken ++ direction.inbox

def Tunnel.scripts (tunnel : Tunnel) : List Inbound × List Inbound :=
  (tunnel.host.script, tunnel.guest.script)

def Tunnel.size (tunnel : Tunnel) : Nat := Pipe.size tunnel.host.taken + Pipe.size tunnel.guest.taken

def opened : List Move → List (List Inbound × List Inbound)
  | [] => []
  | .open_ host guest :: rest => (host, guest) :: opened rest
  | .advance .. :: rest => opened rest

structure Orderly (scripts : List (List Inbound × List Inbound)) (counter : UInt64)
    (relays : Relays) : Prop where
  scripts : relays.tunnels.map Tunnel.scripts = scripts
  carries : ∀ tunnel ∈ relays.tunnels, Carries tunnel.host ∧ Carries tunnel.guest
  counted : relays.bytesForwarded = counter + .ofNat (relays.tunnels.map Tunnel.size).sum

section Runs

variable {scripts : List (List Inbound × List Inbound)} {counter : UInt64} {relays next : Relays}

theorem Orderly.open_ (orderly : Orderly scripts counter relays) (host guest : List Inbound) :
    Orderly (scripts ++ [(host, guest)]) counter
      { relays with tunnels := relays.tunnels ++ [⟨.start host, .start guest⟩] } where
  scripts := by
    rw [List.map_append, orderly.scripts]
    rfl
  carries := by
    intro tunnel member
    rcases List.mem_append.mp member with old | new
    · exact orderly.carries tunnel old
    · rw [List.mem_singleton.mp new]
      exact ⟨⟨rfl, rfl⟩, ⟨rfl, rfl⟩⟩
  counted := by
    rw [List.map_append, List.sum_append]
    exact orderly.counted

theorem Orderly.advance (orderly : Orderly scripts counter relays) {index : Nat} {tunnel : Tunnel}
    (found : relays.tunnels[index]? = some tunnel) (role : RelayRole) (accepts : Bool) :
    Orderly scripts counter
      { tunnels := relays.tunnels.set index
          (tunnel.set ((tunnel.direction role).advance accepts).1 role)
        bytesForwarded :=
          relays.bytesForwarded + ((tunnel.direction role).advance accepts).2 } := by
  have member := List.mem_of_getElem? found
  have carried := orderly.carries tunnel member
  have same : (tunnel.set ((tunnel.direction role).advance accepts).1 role).scripts =
      tunnel.scripts := by
    cases role
    · exact Prod.ext advance_script rfl
    · exact Prod.ext rfl advance_script
  have carries : Carries (tunnel.set ((tunnel.direction role).advance accepts).1 role).host ∧
      Carries (tunnel.set ((tunnel.direction role).advance accepts).1 role).guest := by
    cases role
    · exact ⟨carried.1.advance, carried.2⟩
    · exact ⟨carried.1, carried.2.advance⟩
  have grown : UInt64.ofNat (tunnel.set ((tunnel.direction role).advance accepts).1 role).size =
      .ofNat tunnel.size + ((tunnel.direction role).advance accepts).2 := by
    cases role
    · simp only [Tunnel.size, Tunnel.set, Tunnel.direction, UInt64.ofNat_add, advance_size]
      rw [UInt64.add_assoc, UInt64.add_comm _ (UInt64.ofNat _), UInt64.add_assoc]
    · simp only [Tunnel.size, Tunnel.set, Tunnel.direction, UInt64.ofNat_add, advance_size]
      exact (UInt64.add_assoc ..).symm
  obtain ⟨inside, rfl⟩ := List.getElem?_eq_some_iff.mp found
  refine ⟨?_, ?_, ?_⟩
  · rw [List.map_set, same, ← List.getElem_map Tunnel.scripts, List.set_getElem_self]
    · exact orderly.scripts
    · rwa [List.length_map]
  · intro other among
    rcases List.mem_or_eq_of_mem_set among with old | rfl
    · exact orderly.carries other old
    · exact carries
  · have inside : index < (relays.tunnels.map Tunnel.size).length := by rwa [List.length_map]
    have before := List.sum_set (relays.tunnels.map Tunnel.size) index
      (relays.tunnels.map Tunnel.size)[index]
    rw [List.set_getElem_self, if_pos inside, List.getElem_map] at before
    rw [List.map_set, List.sum_set, if_pos inside, orderly.counted, before]
    simp only [UInt64.ofNat_add, grown]
    ac_rfl

theorem Orderly.run {moves : List Move} (orderly : Orderly scripts counter relays)
    (reached : run Relays.move relays moves = some next) :
    Orderly (scripts ++ opened moves) counter next := by
  induction moves generalizing scripts relays with
  | nil =>
      cases reached
      rw [opened, List.append_nil]
      exact orderly
  | cons move rest induction =>
      obtain ⟨middle, moved, continued⟩ := Option.bind_eq_some_iff.mp reached
      cases move with
      | open_ host guest =>
          cases moved
          have after := induction (orderly.open_ host guest) continued
          rw [List.append_assoc] at after
          exact after
      | advance index role accepts =>
          obtain ⟨tunnel, found, stepped⟩ := Option.bind_eq_some_iff.mp moved
          split at stepped
          · cases stepped
          · cases stepped
            exact induction (orderly.advance found role accepts) continued

end Runs

/-! ## What arrives -/

/-- What the other socket has is a beginning of what was to pass, at most one frame behind what
was taken, and all of it where the direction has ended and lost nothing. -/
structure Faithful (script : List Inbound) (direction : Direction) : Prop where
  taken : direction.taken <+: script
  inOrder : direction.delivered <+: passes script
  behind : ∃ late, direction.delivered ++ late = passes direction.taken ∧ late.length ≤ 1
  waiting : direction.stage = .receiving → direction.delivered = passes direction.taken
  complete : direction.stage = .ended none → direction.delivered = passes script
  closedLast : direction.outbox = direction.delivered ∨
    direction.hasEnded = true ∧ direction.outbox = direction.delivered ++ [.close none]

theorem passes_starts (taken more : List Inbound) : passes taken <+: passes (taken ++ more) := by
  cases on : goesOn taken with
  | true =>
      rw [passes_append on]
      exact List.prefix_append _ _
  | false => rw [passes_append_of_stops on]

theorem delivered_frames {direction : Direction} {frames late tail : List Message}
    (sent : direction.outbox = frames ++ tail) (known : frames ++ late = passes direction.taken)
    (closes : ∀ message ∈ tail, message = .close none) : direction.delivered = frames := by
  have kept : frames.filter (· ≠ .close none) = frames :=
    List.filter_eq_self.mpr fun message member => decide_eq_true fun same =>
      close_not_passes direction.taken (known ▸ List.mem_append_left _ (same ▸ member))
  have dropped : tail.filter (· ≠ .close none) = [] :=
    List.filter_eq_nil_iff.mpr fun message member => by simpa using closes message member
  rw [Direction.delivered, sent, List.filter_append, kept, dropped, List.append_nil]

theorem Carries.parts {direction : Direction} (carries : Carries direction) :
    ∃ frames late tail, direction.outbox = frames ++ tail ∧
      frames ++ late = passes direction.taken ∧ late.length ≤ 1 ∧
      (tail = [] ∨ direction.hasEnded = true ∧ tail = [.close none]) ∧
      (direction.stage = .receiving → late = []) ∧
      (direction.stage = .ended none → late = [] ∧
        passes direction.script = passes direction.taken) := by
  unfold Carries at carries
  split at carries
  · rename_i receiving
    rw [receiving]
    exact ⟨_, [], [], (List.append_nil _).symm, (List.append_nil _).trans carries.1, by decide,
      .inl rfl, fun _ => rfl, fun ended => by cases ended⟩
  · rename_i frame sending
    rw [sending]
    exact ⟨_, [frame], [], (List.append_nil _).symm, carries.1, Nat.le_refl 1, .inl rfl,
      fun receiving => (by cases receiving), fun ended => by cases ended⟩
  · rename_i lost closing
    rw [closing]
    exact ⟨_, lost.toList, [], (List.append_nil _).symm, carries.1, Option.length_toList_le,
      .inl rfl, fun receiving => (by cases receiving), fun ended => by cases ended⟩
  · rename_i lost ended
    obtain ⟨frames, sent, known, whole⟩ := carries
    have finished : direction.hasEnded = true := by rw [Direction.hasEnded, ended]
    have last : ∃ tail, direction.outbox = frames ++ tail ∧
        (tail = [] ∨ direction.hasEnded = true ∧ tail = [.close none]) := by
      rcases sent with bare | closed
      · exact ⟨[], by rw [bare, List.append_nil], .inl rfl⟩
      · exact ⟨[.close none], closed, .inr ⟨finished, rfl⟩⟩
    obtain ⟨tail, sent, closes⟩ := last
    refine ⟨frames, lost.toList, tail, sent, known, Option.length_toList_le, closes, ?_, ?_⟩
    · intro receiving
      rw [ended] at receiving
      cases receiving
    · intro nothing
      rw [ended] at nothing
      cases nothing
      exact ⟨rfl, whole rfl⟩

theorem Carries.faithful {direction : Direction} (carries : Carries direction) :
    Faithful direction.script direction := by
  obtain ⟨frames, late, tail, sent, known, few, closes, waiting, complete⟩ := carries.parts
  have delivered : direction.delivered = frames := by
    refine delivered_frames sent known fun message member => ?_
    rcases closes with rfl | ⟨-, rfl⟩
    · cases member
    · exact List.mem_singleton.mp member
  refine ⟨List.prefix_append _ _, ?_, ⟨late, by rw [delivered, known], few⟩, ?_, ?_, ?_⟩
  · rw [delivered]
    exact (known ▸ List.prefix_append frames late).trans (passes_starts _ _)
  · intro receiving
    rw [waiting receiving, List.append_nil] at known
    rw [delivered, known]
  · intro ended
    obtain ⟨rfl, whole⟩ := complete ended
    rw [delivered, whole, ← known, List.append_nil]
  · rw [delivered, sent]
    rcases closes with rfl | ⟨ended, rfl⟩
    · exact .inl (List.append_nil _)
    · exact .inr ⟨ended, rfl⟩

/-- Whatever tunnels are opened and in whatever order their loops go on: each direction is faithful
to what its socket yields, and the counter has the bytes of all binaries taken. -/
theorem tunnels_faithful (counter : UInt64) {moves : List Move} {final : Relays}
    (reached : run Relays.move ⟨[], counter⟩ moves = some final) :
    (∀ (index : Nat) (tunnel : Tunnel), final.tunnels[index]? = some tunnel →
      ∃ host guest, (opened moves)[index]? = some (host, guest) ∧
        Faithful host tunnel.host ∧ Faithful guest tunnel.guest) ∧
    final.bytesForwarded = counter + .ofNat (final.tunnels.map Tunnel.size).sum := by
  have empty : Orderly [] counter ⟨[], counter⟩ :=
    ⟨rfl, fun _ member => (by cases member), (UInt64.add_zero counter).symm⟩
  have orderly := empty.run reached
  refine ⟨fun index tunnel found => ?_, orderly.counted⟩
  have carries := orderly.carries tunnel (List.mem_of_getElem? found)
  refine ⟨tunnel.host.script, tunnel.guest.script, ?_, carries.1.faithful, carries.2.faithful⟩
  rw [← List.nil_append (opened moves), ← orderly.scripts, List.getElem?_map, found]
  rfl

/-- The host's ping is dropped; its text is in flight when the guest closes. -/
def closingGuest : List Move :=
  [.open_ [.message (.ping []), .message (.binary [1, 2]), .message (.text "late")]
      [.message (.text "hello"), .message (.close none)],
    .advance 0 .host true, .advance 0 .host true, .advance 0 .host true, .advance 0 .guest true,
    .advance 0 .host true, .advance 0 .guest true, .advance 0 .guest true, .advance 0 .guest true]

theorem tunnels_faithful_closing : ∃ final tunnel,
    run Relays.move ⟨[], 7⟩ closingGuest = some final ∧ final.tunnels[0]? = some tunnel ∧
      tunnel.host.outbox = [.binary [1, 2]] ∧ tunnel.guest.outbox = [.text "hello", .close none] ∧
      final.bytesForwarded = 7 + .ofNat (final.tunnels.map Tunnel.size).sum := by
  have whole : ((run Relays.move ⟨[], 7⟩ closingGuest).bind fun final =>
      final.tunnels[0]?.map fun tunnel => decide (tunnel.host.outbox = [.binary [1, 2]] ∧
        tunnel.guest.outbox = [.text "hello", .close none])) = some true := by decide +kernel
  obtain ⟨final, reached, rest⟩ := Option.bind_eq_some_iff.mp whole
  obtain ⟨tunnel, found, sent⟩ := Option.map_eq_some_iff.mp rest
  obtain ⟨host, guest⟩ := of_decide_eq_true sent
  exact ⟨final, tunnel, reached, found, host, guest, (tunnels_faithful 7 reached).2⟩

end Loontail.Network.Pipe
