import Loontail.Core.Models
import Loontail.Core.Text

/-! # Credentials in request headers

A header value is a text of byte characters; the code reads it as a string only
when every byte is visible ASCII. -/

namespace Loontail.Accounts

open Text

inductive Method where
  | get
  | head
  | options
  | post
  | put
  | patch
  | delete
  | other (name : String)
  deriving DecidableEq, Repr

def Method.isMutating : Method → Bool
  | .get => false
  | .head => false
  | .options => false
  | _ => true

/-- Names in lower case, each with a value, in the order of the request. -/
abbrev Headers := List (String × String)

namespace Headers

def get (headers : Headers) (name : String) : Option String :=
  (headers.find? fun header => header.1 = name).map (·.2)

def isVisible (char : Char) : Bool := char = '\t' || (' ' ≤ char && char ≤ '~')

/-- `HeaderValue::to_str`. -/
def toStr (value : String) : Option String :=
  if value.toList.all isVisible then some value else none

def text (headers : Headers) (name : String) : Option String :=
  (headers.get name).bind toStr

def bearerToken (headers : Headers) : Option String := do
  let header ← headers.text "authorization"
  let token ← (stripLeading "Bearer " header.toList).orElse fun _ =>
    stripLeading "bearer " header.toList
  let token := trimChars token
  if token.isEmpty then none else some (.ofList token)

/-- One `name=value` pair of a Cookie header. -/
def cookiePair (name : String) (pair : List Char) : Option String :=
  match splitOnce '=' (trimChars pair) with
  | some (key, value) =>
      if String.ofList (trimChars key) = name then some (.ofList (trimChars value)) else none
  | none => none

def cookieValue (headers : Headers) (name : String) : Option String := do
  let header ← headers.text "cookie"
  (split ';' header.toList).findSome? (cookiePair name)

end Headers

inductive TokenSource where
  | bearer
  | cookie
  deriving DecidableEq, Repr

/-- `Authorization: Bearer` first, then the session cookie. -/
def sessionToken (headers : Headers) (cookieName : String) : Option (String × TokenSource) :=
  match headers.bearerToken with
  | some token => some (token, .bearer)
  | none => (headers.cookieValue cookieName).map fun token => (token, .cookie)

def sessionTokenFromHeaders (headers : Headers) (cookieName : String) : Option String :=
  headers.bearerToken.orElse fun _ => headers.cookieValue cookieName

theorem sessionTokenFromHeaders_eq (headers : Headers) (cookieName : String) :
    sessionTokenFromHeaders headers cookieName =
      (sessionToken headers cookieName).map (·.1) := by
  unfold sessionTokenFromHeaders sessionToken
  cases headers.bearerToken with
  | some token => rfl
  | none => simp [Function.comp_def]

/-! ## The double-submit check -/

def csrfCookieName : String := "loontail_csrf"

def csrfHeaderName : String := "x-csrf-token"

def csrfMatches (headers : Headers) : Bool :=
  match headers.cookieValue csrfCookieName, headers.text csrfHeaderName with
  | some cookie, some header => !cookie.isEmpty && !header.isEmpty && cookie = header
  | _, _ => false

def verifyCsrf (headers : Headers) : Except AppError Unit :=
  match headers.cookieValue csrfCookieName with
  | none => .error .forbidden
  | some cookie =>
      match headers.text csrfHeaderName with
      | none => .error .forbidden
      | some header =>
          if cookie.isEmpty || header.isEmpty || cookie ≠ header then .error .forbidden
          else .ok ()

theorem verifyCsrf_eq (headers : Headers) :
    verifyCsrf headers = if csrfMatches headers then .ok () else .error .forbidden := by
  unfold verifyCsrf csrfMatches
  cases headers.cookieValue csrfCookieName with
  | none => rfl
  | some cookie =>
      cases headers.text csrfHeaderName with
      | none => rfl
      | some header =>
          cases cookie.isEmpty <;> cases header.isEmpty <;>
            by_cases same : cookie = header <;> simp [same]

/-! ## The same headers from someone who is not logged in -/

namespace Headers

def dropCookie (name value : String) : String :=
  .ofList ([';'].intercalate
    ((split ';' value.toList).filter fun pair => (cookiePair name pair).isNone))

def withoutCredentials (cookieName : String) (headers : Headers) : Headers :=
  (headers.filter fun header => header.1 ≠ "authorization").map fun header =>
    if header.1 = "cookie" then (header.1, dropCookie cookieName header.2) else header

theorem get_withoutCredentials {cookieName name value : String} {headers : Headers}
    (found : (headers.withoutCredentials cookieName).get name = some value) :
    name ≠ "authorization" ∧
      (name = "cookie" → ∃ whole, value = dropCookie cookieName whole) := by
  rcases Option.map_eq_some_iff.mp found with ⟨header, first, rfl⟩
  have named : header.1 = name := by simpa using List.find?_some first
  rcases List.mem_map.mp (List.mem_of_find?_eq_some first) with ⟨original, kept, made⟩
  have allowed : original.1 ≠ "authorization" := by simpa using (List.mem_filter.mp kept).2
  split at made
  · rename_i cookie
    cases made
    exact ⟨fun same => allowed (named.trans same), fun _ => ⟨original.2, rfl⟩⟩
  · rename_i other
    cases made
    exact ⟨fun same => allowed (named.trans same), fun same => (other (named.trans same)).elim⟩

theorem bearerToken_withoutCredentials (cookieName : String) (headers : Headers) :
    (headers.withoutCredentials cookieName).bearerToken = none := by
  have missing : (headers.withoutCredentials cookieName).get "authorization" = none := by
    rw [Option.eq_none_iff_forall_ne_some]
    intro value found
    exact (get_withoutCredentials found).1 rfl
  simp [bearerToken, text, missing]

theorem findSome?_dropCookie (name value : String) :
    (split ';' (dropCookie name value).toList).findSome? (cookiePair name) = none := by
  rw [dropCookie, String.toList_ofList]
  generalize kept : (split ';' value.toList).filter
    (fun pair => (cookiePair name pair).isNone) = pairs
  cases pairs with
  | nil => simp [split, cookiePair, splitOnce, trimChars]
  | cons pair rest =>
      rw [split_intercalate (List.cons_ne_nil pair rest) fun piece member => ?_,
        List.findSome?_eq_none_iff]
      · intro piece member
        rw [← kept] at member
        simpa using (List.mem_filter.mp member).2
      · rw [← kept] at member
        exact not_mem_of_mem_split (List.mem_filter.mp member).1

theorem cookieValue_withoutCredentials (cookieName : String) (headers : Headers) :
    (headers.withoutCredentials cookieName).cookieValue cookieName = none := by
  rw [Option.eq_none_iff_forall_ne_some]
  intro value found
  rcases Option.bind_eq_some_iff.mp found with ⟨header, present, among⟩
  rcases Option.bind_eq_some_iff.mp present with ⟨written, first, read⟩
  rcases (get_withoutCredentials first).2 rfl with ⟨whole, rfl⟩
  have same : header = dropCookie cookieName whole := by
    unfold toStr at read
    split at read
    · exact (Option.some.inj read).symm
    · cases read
  rw [same, findSome?_dropCookie] at among
  cases among

end Headers

structure Parts where
  method : Method
  headers : Headers
  deriving DecidableEq, Repr

end Loontail.Accounts
