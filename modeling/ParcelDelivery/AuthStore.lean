import ParcelDelivery.Core
import ParcelDelivery.Table
import ParcelDelivery.Process

/-!
# The credential store

The `user` and `refresh_token` tables and the database calls that `AuthService`
makes on them. A call is a command (`AuthCmd`); the writes of one transaction
take effect together at its commit, or not at all when a constraint refuses one
of them. The unique constraints are part of the types, the foreign key of
`refresh_token.user_id` is checked by the insert.

Emails are written by their owners, and the database compares them under its
collation. The other texts that are compared (identifiers, JTIs, token hashes) are drawn
or computed by the service in one spelling, and are compared letter by letter.

`UPDATE`s follow SQLAlchemy: an attribute assigned on a loaded row is written
by primary key, without looking at what the row holds by then, while the bulk
updates of `_revoke_family` and `logout_all` carry `revoked_at IS NULL` in their
`WHERE`.
-/

namespace ParcelDelivery

open Relational Process

/-- A row of `user`. -/
structure User : Type where
  id : String
  email : String
  hashedPassword : String
  role : String
  createdAt : Time
  deriving DecidableEq, Repr

/-- A row of `refresh_token`. -/
structure RefreshToken : Type where
  jti : String
  userId : String
  tokenHash : String
  familyId : String
  expiresAt : Time
  revokedAt : Option Time
  replacedByJti : Option String
  createdAt : Time
  deriving DecidableEq, Repr

/-- `user.id` is the primary key. -/
instance : Row User where
  clash u u' := u.id = u'.id
  decClash _ _ := inferInstanceAs (Decidable (_ = _))
  clash_refl _ := rfl
  clash_symm h := h.symm

/-- `refresh_token.jti` is the primary key and `refresh_token.token_hash` is unique. -/
instance : Row RefreshToken where
  clash r r' := r.jti = r'.jti ∨ r.tokenHash = r'.tokenHash
  decClash _ _ := inferInstanceAs (Decidable (_ ∨ _))
  clash_refl _ := Or.inl rfl
  clash_symm h := h.imp Eq.symm Eq.symm

/-- The committed database, as far as authentication reads and writes it. -/
structure AuthDb : Type where
  /-- the collation of `user.email` -/
  collate : String → String
  users : Table User
  /-- `user.email` is unique -/
  emails : users.rows.Pairwise fun u u' => ¬ sqlEq collate u.email u'.email
  refreshTokens : Table RefreshToken

/-- The database without rows. -/
def AuthDb.empty (collate : String → String) : AuthDb where
  collate
  users := Table.empty
  emails := List.Pairwise.nil
  refreshTokens := Table.empty

/-! ## Writes -/

/-- `token.revoked_at = …`, `token.replaced_by_jti = …` on a loaded row: the
attributes that were assigned replace the columns, the others stay. -/
def RefreshToken.assign (revokedAt : Option Time) (replacedByJti : Option String)
    (r : RefreshToken) : RefreshToken :=
  { r with
    revokedAt := revokedAt.or r.revokedAt
    replacedByJti := replacedByJti.or r.replacedByJti }

/-- The row is unrevoked: `revoked_at IS NULL`. -/
def RefreshToken.live (r : RefreshToken) : Bool := r.revokedAt.isNone

/-- The statements of a transaction. -/
inductive AuthWrite : Type where
  /-- `INSERT INTO user` -/
  | insertUser (user : User)
  /-- `INSERT INTO refresh_token` -/
  | insertRefreshToken (token : RefreshToken)
  /-- the attributes assigned on a loaded `RefreshToken`, written by primary key -/
  | updateRefreshToken (jti : String) (revokedAt : Option Time) (replacedByJti : Option String)
  /-- the bulk update of `_revoke_family` -/
  | revokeFamily (familyId : String) (revokedAt : Time)
  /-- the bulk update of `logout_all` -/
  | revokeUser (userId : String) (revokedAt : Time)

namespace AuthDb

/-- Write the attributes assigned on the row with this primary key. -/
def updateRefreshToken (jti : String) (revokedAt : Option Time) (replacedByJti : Option String)
    (db : AuthDb) : AuthDb :=
  { db with
    refreshTokens := db.refreshTokens.update (fun r => r.jti == jti)
      (RefreshToken.assign revokedAt replacedByJti) fun _ _ => Iff.rfl }

/-- Set `revoked_at` on the unrevoked rows that meet a condition. -/
def revokeWhere (p : RefreshToken → Bool) (revokedAt : Time) (db : AuthDb) : AuthDb :=
  { db with
    refreshTokens := db.refreshTokens.update (fun r => p r && r.live)
      (RefreshToken.assign (some revokedAt) none) fun _ _ => Iff.rfl }

/-- `UPDATE refresh_token SET revoked_at … WHERE family_id = … AND revoked_at IS NULL`. -/
def revokeFamily (familyId : String) (revokedAt : Time) (db : AuthDb) : AuthDb :=
  db.revokeWhere (fun r => r.familyId == familyId) revokedAt

/-- `UPDATE refresh_token SET revoked_at … WHERE user_id = … AND revoked_at IS NULL`. -/
def revokeUser (userId : String) (revokedAt : Time) (db : AuthDb) : AuthDb :=
  db.revokeWhere (fun r => r.userId == userId) revokedAt

/-- `INSERT INTO user`: the primary key and the email have to be new. -/
def insertUser (user : User) (db : AuthDb) : Option AuthDb :=
  if hemail : ∀ u ∈ db.users.rows, ¬ sqlEq db.collate u.email user.email then
    (db.users.insert user).attach.map fun users =>
      { db with
        users := users.1
        emails := by
          rw [(Table.insert_eq_some users.2).1, List.pairwise_append]
          refine ⟨db.emails, List.pairwise_singleton _ _, fun u hu u' hu' => ?_⟩
          rw [List.mem_singleton.mp hu']
          exact hemail u hu }
  else none

/-- `INSERT INTO refresh_token`: the owner has to exist and the unique columns
have to be new. -/
def insertRefreshToken (token : RefreshToken) (db : AuthDb) : Option AuthDb :=
  if (db.users.select fun u => u.id == token.userId).isSome then
    (db.refreshTokens.insert token).map fun refreshTokens => { db with refreshTokens }
  else none

/-- One statement; `none` where a constraint refuses it. -/
def write (db : AuthDb) : AuthWrite → Option AuthDb
  | .insertUser user => db.insertUser user
  | .insertRefreshToken token => db.insertRefreshToken token
  | .updateRefreshToken jti revokedAt replacedByJti =>
    some (db.updateRefreshToken jti revokedAt replacedByJti)
  | .revokeFamily familyId revokedAt => some (db.revokeFamily familyId revokedAt)
  | .revokeUser userId revokedAt => some (db.revokeUser userId revokedAt)

/-- The statements of a transaction, all or none. -/
def commit (db : AuthDb) (writes : List AuthWrite) : Option AuthDb :=
  writes.foldlM write db

end AuthDb

/-! ## Database calls -/

/-- The database calls of `AuthService`. -/
inductive AuthCmd : Type where
  /-- `SELECT … FROM user WHERE email = …` -/
  | selectUserByEmail (email : String)
  /-- `SELECT … FROM user WHERE id = …` -/
  | selectUserById (id : String)
  /-- `SELECT … FROM refresh_token WHERE token_hash = …` -/
  | selectRefreshToken (tokenHash : String)
  /-- `session.commit()` with the statements of the transaction -/
  | commit (writes : List AuthWrite)
  /-- `session.refresh(user)` -/
  | refreshUser (id : String)

/-- What a call answers. -/
abbrev AuthCmd.Answer : AuthCmd → Type
  | .selectUserByEmail _ => Option User
  | .selectUserById _ => Option User
  | .selectRefreshToken _ => Option RefreshToken
  | .commit _ => Unit
  | .refreshUser _ => User

/-- Programs over the credential store. -/
abbrev AuthProg (α : Type) : Type := Prog AuthCmd AuthCmd.Answer Exn α

namespace AuthProg

/-- `session.scalar(select(User).where(User.email == email))`. -/
def selectUserByEmail (email : String) : AuthProg (Option User) :=
  .call (AuthCmd.selectUserByEmail email) .ret

/-- `session.scalar(select(User).where(User.id == id))`. -/
def selectUserById (id : String) : AuthProg (Option User) :=
  .call (AuthCmd.selectUserById id) .ret

/-- `session.scalar(select(RefreshToken).where(RefreshToken.token_hash == tokenHash))`. -/
def selectRefreshToken (tokenHash : String) : AuthProg (Option RefreshToken) :=
  .call (AuthCmd.selectRefreshToken tokenHash) .ret

/-- `session.commit()`. -/
def commit (writes : List AuthWrite) : AuthProg Unit :=
  .call (AuthCmd.commit writes) .ret

/-- `session.refresh(user)`. -/
def refreshUser (id : String) : AuthProg User :=
  .call (AuthCmd.refreshUser id) .ret

end AuthProg

/-- The meaning of a call on the committed database. -/
def authHandler : Handler AuthCmd AuthCmd.Answer Exn AuthDb
  | .selectUserByEmail email, db =>
    (.ok (db.users.select fun u => sqlEq db.collate u.email email), db)
  | .selectUserById id, db => (.ok (db.users.select fun u => u.id == id), db)
  | .selectRefreshToken tokenHash, db =>
    (.ok (db.refreshTokens.select fun r => r.tokenHash == tokenHash), db)
  | .commit writes, db =>
    match db.commit writes with
    | some db' => (.ok (), db')
    | none => (.error .integrityError, db)
  | .refreshUser id, db =>
    match db.users.select fun u => u.id == id with
    | some user => (.ok user, db)
    | none => (.error .invalidRequestError, db)

end ParcelDelivery
