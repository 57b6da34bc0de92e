import Loontail.Server.ClientIp

/-! # Which hop is believed

Behind a trusted proxy one line of `X-Forwarded-For` is read, the first. It ends with the
hop that the proxy saw only if that is the line the proxy wrote to. -/

namespace Loontail.Server

open Accounts Text

/-- The line that is read is one that the proxy wrote to, and it can be read: the client
sent no line at all, or a single one in visible ASCII that the proxy extends. -/
def Genuine (mode : Forwarding) (headers : Headers) : Prop :=
  match forwardedLines headers, mode with
  | [], _ => True
  | [line], .lastLine _ => (Headers.toStr line).isSome
  | _, _ => False

instance (mode : Forwarding) (headers : Headers) : Decidable (Genuine mode headers) := by
  unfold Genuine
  split <;> infer_instance

/-! ## The hop that a proxy writes -/

section Hop

variable {chars : List Char} {char : Char} {peer : IpAddr}

theorem addressChar_range (address : isAddressChar char = true) :
    46 ≤ char.toNat ∧ char.toNat ≤ 102 := by
  simp only [isAddressChar, isHexDigit, Bool.or_eq_true, Bool.and_eq_true, decide_eq_true_eq,
    Char.le_def, UInt32.le_iff_toNat_le] at address
  rcases address with (((⟨low, high⟩ | ⟨low, high⟩) | ⟨low, high⟩) | rfl) | rfl
  · exact ⟨le_trans (by decide) low, le_trans high (by decide)⟩
  · exact ⟨le_trans (by decide) low, le_trans high (by decide)⟩
  · exact ⟨le_trans (by decide) low, le_trans high (by decide)⟩
  · decide
  · decide

theorem addressChar_visible (address : isAddressChar char = true) :
    Headers.isVisible char = true := by
  obtain ⟨low, high⟩ := addressChar_range address
  simp only [Headers.isVisible, Bool.or_eq_true, Bool.and_eq_true, decide_eq_true_eq,
    Char.le_def, UInt32.le_iff_toNat_le]
  exact .inr ⟨le_trans (by decide) low, le_trans high (by decide)⟩

theorem addressChar_not_whitespace (address : isAddressChar char = true) :
    isWhitespace char = false := by
  obtain ⟨low, high⟩ := addressChar_range address
  simp only [isWhitespace, Bool.or_eq_false_iff, Bool.and_eq_false_iff, decide_eq_false_iff_not]
  omega

theorem trimChars_blanks (blanks : Nat) (plain : ∀ char ∈ chars, isWhitespace char = false) :
    trimChars (List.replicate blanks ' ' ++ chars) = chars := by
  induction blanks with
  | zero => exact trimChars_of_plain plain
  | succ blanks induction => exact induction

theorem split_of_parse (parsed : parseIpAddr chars = some peer) (blanks : Nat) :
    split ',' (List.replicate blanks ' ' ++ chars) = [List.replicate blanks ' ' ++ chars] := by
  have apart : ',' ∉ List.replicate blanks ' ' ++ chars := by
    intro member
    rcases List.mem_append.mp member with blank | part
    · exact absurd (List.eq_of_mem_replicate blank) (by decide)
    · exact absurd (isAddressChar_of_parse parsed _ part) (by decide)
  simpa using @split_intercalate ',' [List.replicate blanks ' ' ++ chars] (by simp)
    (fun piece only => by rwa [List.mem_singleton.mp only])

theorem parse_trimmed (parsed : parseIpAddr chars = some peer) (blanks : Nat) :
    parseIpAddr (trimChars (List.replicate blanks ' ' ++ chars)) = some peer := by
  rw [trimChars_blanks blanks fun char member =>
    addressChar_not_whitespace (isAddressChar_of_parse parsed char member)]
  exact parsed

theorem hop_visible {hop : String} (parsed : parseIpAddr hop.toList = some peer) :
    Headers.toStr hop = some hop :=
  if_pos (List.all_eq_true.mpr fun char member =>
    addressChar_visible (isAddressChar_of_parse parsed char member))

theorem withHop_visible {line hop : String} (blanks : Nat) (readable : (Headers.toStr line).isSome)
    (parsed : parseIpAddr hop.toList = some peer) :
    Headers.toStr (withHop blanks line hop) = some (withHop blanks line hop) := by
  have client : line.toList.all Headers.isVisible = true := by
    unfold Headers.toStr at readable
    split at readable
    · assumption
    · cases readable
  have added : hop.toList.all Headers.isVisible = true := List.all_eq_true.mpr fun char member =>
    addressChar_visible (isAddressChar_of_parse parsed char member)
  refine if_pos ?_
  have visible : Headers.isVisible ',' = true ∧ Headers.isVisible ' ' = true := by decide
  simp [withHop, client, added, visible, List.all_replicate]

theorem rightmost_of_ends {front : List Char} (parsed : parseIpAddr chars = some peer)
    (blanks : Nat) :
    (split ',' (front ++ ',' :: (List.replicate blanks ' ' ++ chars))).reverse.findSome?
      (fun hop => parseIpAddr (trimChars hop)) = some peer := by
  rw [split_append, split_of_parse parsed blanks, List.reverse_append, List.reverse_singleton,
    List.singleton_append, List.findSome?_cons, parse_trimmed parsed blanks]

end Hop

/-! ## Which address is resolved -/

section Resolving

variable {mode : Forwarding} {headers : Headers} {hop : String} {peer : IpAddr}

theorem forwarded_of_genuine (genuine : Genuine mode headers)
    (parsed : parseIpAddr hop.toList = some peer) :
    forwardedForRightmost (forward mode hop headers) = some peer := by
  unfold forwardedForRightmost Headers.text
  rw [get_forward]
  unfold Genuine at genuine
  split at genuine
  · rename_i none
    simp only [none, Option.bind_some, hop_visible parsed]
    have single := split_of_parse parsed 0
    have found := parse_trimmed parsed 0
    simp only [List.replicate_zero, List.nil_append] at single found
    simp [single, found]
  · rename_i line blanks one
    simp only [one, Option.bind_some, withHop_visible blanks genuine parsed]
    have spelled : (withHop blanks line hop).toList =
        line.toList ++ ',' :: (List.replicate blanks ' ' ++ hop.toList) := by
      simp [withHop]
    rw [spelled]
    exact rightmost_of_ends parsed blanks
  · exact genuine.elim

/-- Where the line that is read is the client's, the hop that the proxy adds does not
matter. -/
theorem forwarded_of_not_genuine (forged : ¬Genuine mode headers) (hop other : String) :
    forwardedForRightmost (forward mode hop headers) =
      forwardedForRightmost (forward mode other headers) := by
  unfold forwardedForRightmost Headers.text
  rw [get_forward, get_forward]
  unfold Genuine at forged
  cases lines : forwardedLines headers with
  | nil =>
      rw [lines] at forged
      exact (forged trivial).elim
  | cons line rest =>
      rw [lines] at forged
      cases rest with
      | cons next later => rfl
      | nil =>
          cases mode with
          | furtherLine => rfl
          | lastLine blanks =>
              -- a byte of the client's part makes the whole line unreadable
              have hidden : line.toList.all Headers.isVisible = false := by
                by_contra visible
                refine forged ?_
                change (Headers.toStr line).isSome = true
                rw [Headers.toStr, if_pos (Bool.not_eq_false _ ▸ visible)]
                rfl
              have unreadable : ∀ hop, Headers.toStr (withHop blanks line hop) = none := by
                intro hop
                refine if_neg ?_
                simp [withHop, hidden]
              simp only [Option.bind_some, unreadable]

end Resolving

/-- Whatever a client sends, the address that a trusted proxy adds is the one resolved,
for every such address, exactly if the line that is read is the proxy's. -/
theorem client_ip_unspoofable_iff (mode : Forwarding) (headers : Headers) :
    (∀ (peer : IpAddr) (hop : String) (transport : Option IpAddr),
      parseIpAddr hop.toList = some peer →
        clientIp (forward mode hop headers) transport true = some peer) ↔
      Genuine mode headers := by
  constructor
  · intro resolved
    by_contra forged
    have first := resolved (.v4 1) "0.0.0.1" none (by decide +kernel)
    have second := resolved (.v4 2) "0.0.0.2" none (by decide +kernel)
    unfold clientIp at first second
    rw [realIp_forward] at first second
    rw [forwarded_of_not_genuine forged "0.0.0.1" "0.0.0.2"] at first
    have same := first.symm.trans second
    exact absurd same (by decide)
  · intro genuine peer hop transport parsed
    unfold clientIp
    rw [forwarded_of_genuine genuine parsed]
    rfl

/-- Two clients behind the same address: one sends a line of its own. -/
theorem client_ip_spoofed :
    ¬∀ (mode : Forwarding) (headers others : Headers) (peer : IpAddr) (hop : String)
      (transport : Option IpAddr), parseIpAddr hop.toList = some peer →
      clientIp (forward mode hop headers) transport true = some peer ∧
        clientIp (forward mode hop others) transport true = some peer := by
  intro always
  have both := always .furtherLine [("x-forwarded-for", "6.6.6.6")] [] (.v4 0x0A000001#32)
    "10.0.0.1" none (by decide +kernel)
  exact absurd both.1 (by decide +kernel)

end Loontail.Server
