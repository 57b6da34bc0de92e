import Loontail.Accounts.Admin
import Loontail.Observability.RequestLog
import Loontail.Textures.Schema

/-! # Pages of listings

The number of a page is clamped from below only, and a large one overflows. Two of the listings
are ordered by a time alone, so rows of one time can change places between the queries. -/

/-! ## Offsets -/

namespace Loontail

open Relational Accounts Observability Textures

theorem max_le_iff {page bound : Int} (above : 0 ≤ bound) :
    max page 1 - 1 ≤ bound ↔ page ≤ bound + 1 := by
  omega

/-- Each listing computes a safe offset for the pages up to its bound, and for no other. -/
theorem offsets_safe_iff (page : Option Int64) :
    (SafeOffset userPageSize (page.getD 1) (searchOffset (page.getD 1)) ↔
      (page.getD 1).toInt ≤ (2 ^ 63 - 1) / 25 + 1) ∧
    (SafeOffset texturePageSize (page.getD 1) (listOffset (page.getD 1)) ↔
      (page.getD 1).toInt ≤ (2 ^ 63 - 1) / 20 + 1) ∧
    (SafeOffset requestPageSize (page.getD 1) (requestOffset (page.getD 1)) ↔
      (page.getD 1).toInt ≤ (2 ^ 63 - 1) / 50 + 1) := by
  have users : userPageSize.toInt = 25 := rfl
  have textures : texturePageSize.toInt = 20 := rfl
  have requests : requestPageSize.toInt = 50 := rfl
  refine ⟨?_, ?_, ?_⟩
  · rw [searchOffset, safeOffset_iff (by rw [users]; decide), users, max_le_iff (by decide)]
  · rw [listOffset, safeOffset_iff (by rw [textures]; decide), textures, max_le_iff (by decide)]
  · rw [requestOffset, safeOffset_iff (by rw [requests]; decide), requests, max_le_iff (by decide)]

/-- The page 368934881474191034 has the offset -9223372036854775791, which the database refuses. -/
theorem offset_overflows :
    ¬∀ page : Option Int64,
      SafeOffset userPageSize (page.getD 1) (searchOffset (page.getD 1)) ∧
      SafeOffset texturePageSize (page.getD 1) (listOffset (page.getD 1)) ∧
      SafeOffset requestPageSize (page.getD 1) (requestOffset (page.getD 1)) := by
  intro safe
  have negative : ¬0 ≤ (searchOffset 368934881474191034).toInt := by decide +kernel
  exact negative (safe (some 368934881474191034)).1.2

/-! ## Pages that list each row once -/

section Users

variable (state : Accounts.AppState) (lower : String → String) (query : Option String)
  (contents : Contents fun user : StoredUser => user.id)

theorem selectedUsers_sublist (query : String) (rows : List StoredUser) :
    (state.selectedUsers lower query rows).Sublist rows := by
  unfold Accounts.AppState.selectedUsers
  split
  · exact .refl rows
  · exact List.filter_sublist

theorem toInt_pageCount_users {length : Nat} (bounded : length < 2 ^ 41) :
    (if 0 < userPageSize then
        (Int64.ofNat length + userPageSize - 1) / userPageSize else 0).toInt =
      ((length + 25 - 1) / 25 : Nat) := by
  have size : userPageSize.toInt = (25 : Nat) := rfl
  rw [if_pos (by decide)]
  exact toInt_ceil size (by decide) (by decide) bounded

theorem users_partitioned_iff :
    Partitioned (fun arrangement page =>
        state.listUsers lower query (some page) contents.rows arrangement)
      (state.selectedUsers lower (query.getD "") contents.rows) ↔
    ¬Straddled StoredUser.recency 25 (state.selectedUsers lower (query.getD "") contents.rows) := by
  have size : userPageSize.toInt = (25 : Nat) := rfl
  have within := selectedUsers_sublist state lower (query.getD "") contents.rows
  have bounded := Nat.lt_of_le_of_lt within.length_le contents.bounded
  have distinct := (contents.keysUnique.of_map _).sublist within
  have counted := toInt_pageCount_users bounded
  have asked : ∀ (arrangement : Arrangement StoredUser.recency) (page : Int64),
      state.listUsers lower query (some page) contents.rows arrangement =
        listPage userPageSize
          (fun total => if 0 < userPageSize then (total + userPageSize - 1) / userPageSize else 0)
          (state.selectedUsers lower (query.getD "") contents.rows) arrangement page :=
    fun _ _ => rfl
  simp only [asked]
  refine partitioned_listPage_iff (by rw [size]; decide) distinct bounded counted ?_ ?_
  · rw [size, Int.toNat_natCast]
    omega
  · rw [size, Int.toNat_natCast]
    omega

end Users

section Textures

variable (folding : CaseFolding) (kind : TextureKind) (search : Option String)
  (contents : Contents Texture.key)

theorem toInt_pageCount_textures {length : Nat} (bounded : length < 2 ^ 41) :
    (if 0 < Int64.ofNat length then
        (Int64.ofNat length + texturePageSize - 1) / texturePageSize else 0).toInt =
      ((length + 20 - 1) / 20 : Nat) := by
  have zero : (0 : Int64).toInt = 0 := rfl
  have total := Int64.toInt_ofNat_of_lt (Nat.lt_trans bounded (by decide : 2 ^ 41 < 2 ^ 63))
  have size : texturePageSize.toInt = (20 : Nat) := rfl
  split
  · exact toInt_ceil size (by decide) (by decide) bounded
  · rename_i none
    rw [Int64.lt_iff_toInt_lt, zero, total] at none
    rw [zero]
    omega

theorem textures_partitioned_iff :
    Partitioned (fun arrangement page =>
        list folding kind ⟨search, some page⟩ contents.rows arrangement)
      (selectedTextures folding kind (search.getD "") contents.rows) ↔
    ¬Straddled Texture.recency 20
      (selectedTextures folding kind (search.getD "") contents.rows) := by
  have size : texturePageSize.toInt = (20 : Nat) := rfl
  have within : (selectedTextures folding kind (search.getD "") contents.rows).Sublist
      contents.rows := List.filter_sublist
  have bounded := Nat.lt_of_le_of_lt within.length_le contents.bounded
  have distinct := (contents.keysUnique.of_map _).sublist within
  have counted := toInt_pageCount_textures bounded
  simp only [list_eq_listPage]
  refine partitioned_listPage_iff (by rw [size]; decide) distinct bounded counted ?_ ?_
  · rw [size, Int.toNat_natCast]
    omega
  · rw [size, Int.toNat_natCast]
    omega

end Textures

section Requests

variable (query : RequestLogQuery) (contents : Contents fun row : StoredRequest => row.id)

theorem id_eq_of_recency_eq {left right : StoredRequest}
    (same : left.recency = right.recency) : left.id = right.id :=
  Int.neg_inj.mp (congrArg (fun rank => (ofLex rank).2) same)

theorem toInt_pageCount_requests {length : Nat} (bounded : length < 2 ^ 41) :
    (max ((Int64.ofNat length + requestPageSize - 1) / requestPageSize) 1).toInt =
      (max ((length + 50 - 1) / 50) 1 : Nat) := by
  have size : requestPageSize.toInt = (50 : Nat) := rfl
  rw [toInt_max_one, toInt_ceil size (by decide) (by decide) bounded]
  omega

theorem requests_partitioned_iff :
    Partitioned (fun arrangement page =>
        listRequests { query with page := some page } contents.rows arrangement)
      (query.selected contents.rows) ↔
    ¬Straddled StoredRequest.recency 50 (query.selected contents.rows) := by
  have size : requestPageSize.toInt = (50 : Nat) := rfl
  have within : (query.selected contents.rows).Sublist contents.rows := List.filter_sublist
  have bounded := Nat.lt_of_le_of_lt within.length_le contents.bounded
  have distinct := (contents.keysUnique.of_map _).sublist within
  have counted := toInt_pageCount_requests bounded
  have asked : ∀ (arrangement : Arrangement StoredRequest.recency) (page : Int64),
      listRequests { query with page := some page } contents.rows arrangement =
        listPage requestPageSize
          (fun total => max ((total + requestPageSize - 1) / requestPageSize) 1)
          (query.selected contents.rows) arrangement page := fun _ _ => rfl
  simp only [asked]
  refine partitioned_listPage_iff (by rw [size]; decide) distinct bounded counted ?_ ?_
  · rw [size, Int.toNat_natCast]
    omega
  · rw [size, Int.toNat_natCast]
    omega

theorem recencies_distinct : ((query.selected contents.rows).map StoredRequest.recency).Nodup := by
  have within : (query.selected contents.rows).Sublist contents.rows := List.filter_sublist
  have keys := contents.keysUnique.sublist (within.map _)
  refine (List.nodup_map_iff_inj_on (keys.of_map _)).mpr ?_
  intro left among right other same
  exact List.inj_on_of_nodup_map keys among other (id_eq_of_recency_eq same)

end Requests

/-- The listings of users and of textures list each row once exactly if no rows of one time are on
both sides of the end of a page. The listing of requests always does. -/
theorem pages_partition_iff (state : Accounts.AppState) (lower : String → String)
    (folding : CaseFolding) (kind : TextureKind) (search : Option String)
    (query : RequestLogQuery) (users : Contents fun user : StoredUser => user.id)
    (textures : Contents Texture.key) (requests : Contents fun row : StoredRequest => row.id) :
    (Partitioned (fun arrangement page =>
        state.listUsers lower search (some page) users.rows arrangement)
      (state.selectedUsers lower (search.getD "") users.rows) ↔
        ¬Straddled StoredUser.recency 25
          (state.selectedUsers lower (search.getD "") users.rows)) ∧
    (Partitioned (fun arrangement page =>
        list folding kind ⟨search, some page⟩ textures.rows arrangement)
      (selectedTextures folding kind (search.getD "") textures.rows) ↔
        ¬Straddled Texture.recency 20
          (selectedTextures folding kind (search.getD "") textures.rows)) ∧
    Partitioned (fun arrangement page =>
        listRequests { query with page := some page } requests.rows arrangement)
      (query.selected requests.rows) :=
  ⟨users_partitioned_iff state lower search users,
    textures_partitioned_iff folding kind search textures,
    (requests_partitioned_iff query requests).mpr
      (not_straddled_of_injective (recencies_distinct query requests))⟩

def simultaneous (user : Uuid) : Texture where
  userId := user
  kind := .skin
  profileUuid := ""
  username := ""
  filePath := []
  fileUrl := ""
  fileSize := 0
  variant := some .classic
  updatedAt := 0

/-- Of 21 skins that were stored at one time, one can be on both pages. -/
theorem pages_not_partition :
    ¬∀ (folding : CaseFolding) (kind : TextureKind) (search : Option String)
        (contents : Contents Texture.key),
      Partitioned (fun arrangement page =>
          list folding kind ⟨search, some page⟩ contents.rows arrangement)
        (selectedTextures folding kind (search.getD "") contents.rows) := by
  intro partitioned
  have apart := (textures_partitioned_iff ⟨id, fun _ _ _ => Iff.rfl⟩ .skin none
    ⟨(List.range 21).map simultaneous, by decide, by decide⟩).mp (partitioned _ _ _ _)
  refine apart ⟨simultaneous 0, by decide +kernel, 1, by decide +kernel, by decide +kernel⟩

end Loontail
