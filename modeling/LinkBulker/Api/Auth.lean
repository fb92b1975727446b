import LinkBulker.Db.Schema

/-! `AuthService`, `SessionGuard`, the cookies of `AuthController` and `packages/db/src/seed.ts`. -/

namespace LinkBulker.Auth

open Foundations Db

inductive Role
  | ADMIN
  | USER
  deriving DecidableEq

structure User where
  id : UserId
  email : String
  passwordHash : String
  role : Role := .USER
  deriving DecidableEq

structure SessionUser where
  id : UserId
  email : String
  role : Role
  deriving DecidableEq

def User.session (u : User) : SessionUser := ⟨u.id, u.email, u.role⟩

/-- `bcrypt.compare`, and the signed cookies of `@fastify/cookie` under the server's secret:
`unsignCookie` gives back the value of a cookie that `sign` has made. -/
structure Crypto where
  compare : String → String → Bool
  sign : String → String
  unsign : String → Option String
  unsign_sign : ∀ value, unsign (sign value) = some value
  sign_ne_empty : ∀ value, sign value ≠ ""

variable (crypto : Crypto) (users : Table User.id)

def login (email password : String) : Except String SessionUser :=
  match users.rows.find? fun u => u.email = email with
  | none => .error "Invalid credentials"
  | some user =>
    if crypto.compare password user.passwordHash then .ok user.session
    else .error "Invalid credentials"

def getSessionUser (userId : UserId) : Option SessionUser :=
  (users.find? userId).map User.session

/-- `cookie` is the raw `lc_session` cookie of the request. -/
def canActivate (cookie : Option String) : Except String SessionUser :=
  match cookie.filter (· ≠ "") with
  | none => .error "Not authenticated"
  | some raw =>
    match (crypto.unsign raw).filter (· ≠ "") with
    | none => .error "Invalid session"
    | some value =>
      match getSessionUser users value with
      | none => .error "Session user not found"
      | some user => .ok user

/-- `prisma.user.upsert` by the email; `cuid` is the id of a created row. -/
def seed (email passwordHash : String) (cuid : UserId) : Table User.id :=
  if users.rows.any fun u => u.email = email then
    users.updateWhere (fun u => u.email = email) (fun u => { u with passwordHash, role := .ADMIN })
      fun _ => rfl
  else (users.insertMany [⟨cuid, email, passwordHash, .ADMIN⟩]).getD users

section Laws

variable {crypto users}

theorem login_eq_ok {email password : String} {user : SessionUser} :
    login crypto users email password = .ok user →
      ∃ u ∈ users.rows, u.email = email ∧ crypto.compare password u.passwordHash ∧
        user = u.session := by
  unfold login
  split
  · nofun
  · rename_i u hfind
    split
    · rename_i hcompare
      intro h
      cases h
      have hemail : u.email = email := by simpa using List.find?_some hfind
      exact ⟨u, List.mem_of_find?_eq_some hfind, hemail, hcompare, rfl⟩
    · nofun

theorem canActivate_eq_ok {cookie : Option String} {user : SessionUser} :
    canActivate crypto users cookie = .ok user ↔
      ∃ raw, cookie = some raw ∧ raw ≠ "" ∧ crypto.unsign raw = some user.id ∧ user.id ≠ "" ∧
        getSessionUser users user.id = some user := by
  unfold canActivate
  constructor
  · intro h
    split at h
    · cases h
    · rename_i raw hraw
      obtain ⟨hcookie, hne⟩ := Option.filter_eq_some_iff.mp hraw
      split at h
      · cases h
      · rename_i value hvalue
        obtain ⟨hunsign, hne'⟩ := Option.filter_eq_some_iff.mp hvalue
        split at h
        · cases h
        · rename_i u hu
          cases h
          obtain ⟨row, hrow, rfl⟩ := Option.map_eq_some_iff.mp hu
          obtain ⟨-, rfl⟩ := Table.find?_eq_some.mp hrow
          exact ⟨raw, hcookie, of_decide_eq_true hne, hunsign, of_decide_eq_true hne', hu⟩
  · rintro ⟨raw, rfl, hne, hunsign, hne', hu⟩
    simp [Option.filter_some, hne, hunsign, hne', hu]

theorem canActivate_sign {u : User} (hu : u ∈ users.rows) (hid : u.id ≠ "") :
    canActivate crypto users (some (crypto.sign u.id)) = .ok u.session := by
  refine canActivate_eq_ok.mpr ⟨_, rfl, crypto.sign_ne_empty _, crypto.unsign_sign _, hid, ?_⟩
  rw [getSessionUser]
  exact Option.map_eq_some_iff.mpr ⟨u, Table.find?_eq_some.mpr ⟨hu, rfl⟩, rfl⟩

theorem exists_mem_seed (email passwordHash : String) (cuid : UserId) {u : User}
    (hu : u ∈ users.rows) :
    ∃ u' ∈ (seed users email passwordHash cuid).rows, u'.id = u.id ∧ u'.email = u.email := by
  unfold seed
  split
  · exact ⟨_, Table.mem_updateWhere.mpr ⟨u, hu, rfl⟩, by split <;> exact ⟨rfl, rfl⟩⟩
  · cases hinsert : users.insertMany [⟨cuid, email, passwordHash, .ADMIN⟩] with
    | none => exact ⟨u, hu, rfl, rfl⟩
    | some users' =>
      refine ⟨u, ?_, rfl, rfl⟩
      rw [Option.getD_some, Table.insertMany_eq_some.mp hinsert]
      exact List.mem_append_left _ hu

end Laws

end LinkBulker.Auth
