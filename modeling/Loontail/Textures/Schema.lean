import Loontail.Core.Models
import Loontail.Core.Text
import Loontail.Core.Paging

/-! # The texture registry

A user has at most one skin and one cape, each with a file of its own on disk. -/

namespace Loontail.Textures

open Relational Text

inductive TextureKind where
  | skin
  | cape
  deriving DecidableEq, Repr

namespace TextureKind

def asStr : TextureKind → String
  | skin => "skin"
  | cape => "cape"

def storageDir : TextureKind → String
  | skin => "skins"
  | cape => "capes"

def parse (segment : String) : Option TextureKind :=
  [skin, cape].find? fun kind => kind.asStr = segment

end TextureKind

inductive SkinVariant where
  | classic
  | slim
  deriving DecidableEq, Repr

structure Texture where
  userId : Uuid
  kind : TextureKind
  profileUuid : String
  username : String
  filePath : List String
  fileUrl : String
  fileSize : Int
  variant : Option SkinVariant
  updatedAt : Timestamp
  deriving DecidableEq, Repr

/-- The primary key of `user_textures`. -/
abbrev Texture.key (row : Texture) : Uuid × TextureKind := (row.userId, row.kind)

/-! ## The texture list of the administrators

The rows of one kind that a search selects, the latest first, in pages of 20. -/

/-- How the database folds the case of a character. It has no case for those that have a meaning
in patterns. -/
structure CaseFolding where
  lower : Char → Char
  lower_eq_iff : ∀ wild, isWildcard wild = true → ∀ char, lower char = wild ↔ char = wild

namespace CaseFolding

variable (folding : CaseFolding)

def fold (text : String) : List Char := text.toList.map folding.lower

/-- `text ILIKE pattern`. -/
def ilike (text pattern : String) : Bool := like (folding.fold pattern) (folding.fold text)

end CaseFolding

/-- `ORDER BY updated_at DESC`. -/
def Texture.recency (row : Texture) : Timestamp := -row.updatedAt

/-- `kind = $1 AND ($2 = '' OR username ILIKE $3 OR profile_uuid ILIKE $3)`. -/
def Texture.selected (folding : CaseFolding) (kind : TextureKind) (search : String)
    (row : Texture) : Bool :=
  let pattern := "%" ++ search ++ "%"
  row.kind = kind && (search = "" || folding.ilike row.username pattern ||
    folding.ilike row.profileUuid pattern)

def selectedTextures (folding : CaseFolding) (kind : TextureKind) (search : String)
    (rows : List Texture) : List Texture := rows.filter (Texture.selected folding kind search)

def adminList (folding : CaseFolding) (kind : TextureKind) (search : String)
    (limit offset : Int64) (rows : List Texture) (arrangement : Arrangement Texture.recency) :
    Option (List Texture) :=
  limitOffset limit offset (arrangement.order (selectedTextures folding kind search rows))

def adminCount (folding : CaseFolding) (kind : TextureKind) (search : String)
    (rows : List Texture) : Int64 := .ofNat (selectedTextures folding kind search rows).length

def texturePageSize : Int64 := 20

def listOffset (page : Int64) : Int64 := pageOffset texturePageSize page

structure ListQuery where
  q : Option String
  page : Option Int64
  deriving DecidableEq

def list (folding : CaseFolding) (kind : TextureKind) (query : ListQuery) (rows : List Texture)
    (arrangement : Arrangement Texture.recency) : Option (Listing Texture) := do
  let search := query.q.getD ""
  let page := query.page.getD 1
  let data ← adminList folding kind search texturePageSize (listOffset page) rows arrangement
  let total := adminCount folding kind search rows
  let pageCount := if 0 < total then (total + texturePageSize - 1) / texturePageSize else 0
  some ⟨data, ⟨max page 1, texturePageSize, total, pageCount⟩⟩

theorem list_eq_listPage (folding : CaseFolding) (kind : TextureKind) (query : ListQuery)
    (rows : List Texture) (arrangement : Arrangement Texture.recency) :
    list folding kind query rows arrangement = listPage texturePageSize
      (fun total => if 0 < total then (total + texturePageSize - 1) / texturePageSize else 0)
      (selectedTextures folding kind (query.q.getD "") rows) arrangement (query.page.getD 1) := by
  simp only [list, listPage, adminList, adminCount, listOffset, Option.bind_eq_bind,
    Option.map_eq_bind]
  rfl

end Loontail.Textures
