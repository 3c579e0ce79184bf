import PeerChat.CredentialProofs
import PeerChat.PasswordHashProofs
import PeerChat.UserStoreProofs

/-! # `Register` and `Login` of package `auth`

    Registering validates, hashes, inserts and signs a token; logging in
    validates, looks the user up, compares and signs.  The validators leave the
    length of a password open at the top, while the hash reads a bounded number
    of bytes: `checkPassword_iff` is what becomes of the passwords between. -/

namespace PeerAuth

open PeerEnv PeerStore PasswordHash KeyedTable

/-! ## What the handlers take from other packages -/

/-- `Claims`, times in seconds. -/
structure Claims where
  userID : UUID
  username : String
  expiresAt : Nat
  issuedAt : Nat
  deriving DecidableEq, Repr

/-- The functions of `bcrypt`, `jwt` and `encoding/json`; `σ` is a salt. -/
structure Libs (σ : Type) where
  generateFromPassword : σ → List UInt8 → Nat → Option String
  compareHashAndPassword : String → List UInt8 → Bool
  /-- `SignedString` of an HS256 token. -/
  signedString : Claims → List UInt8 → Option String
  /-- The text of the error `Decode` returns for a request type and a body. -/
  jsonError : String → List UInt8 → String

variable {σ : Type}

/-- The cost `HashPassword` asks for. -/
def hashCost : Nat := 12

/-- The length bcrypt refuses to exceed, in bytes. -/
def maxPasswordBytes : Nat := 72

/-- The hasher `HashPassword` and `CheckPassword` use. -/
def Libs.bcrypt (lib : Libs σ) : Hasher σ UInt8 String where
  generate salt password := lib.generateFromPassword salt password hashCost
  compare := lib.compareHashAndPassword

/-- **What is relied on**: bcrypt's bound of 72 bytes and its comparison, that a hash is
    text a column can hold, and that signing with a byte key succeeds. -/
structure Libs.Lawful (lib : Libs σ) : Prop where
  bcrypt : lib.bcrypt.Lawful maxPasswordBytes fun p => (0 : UInt8) ∉ p
  hash_nulFree : ∀ salt p hash, lib.bcrypt.generate salt p = some hash → NulFree hash
  signs : ∀ claims key, ∃ token, lib.signedString claims key = some token

/-! ## `service.go` -/

/-- One request's environment: the queries, the salt and the clock. -/
structure AuthEnv (σ : Type) extends UserEnv where
  salt : σ
  /-- The two readings of the clock in `GenerateToken`. -/
  expiryNow : Nat
  issueNow : Nat

/-- `HashPassword`. -/
def hashPassword (lib : Libs σ) (salt : σ) (password : String) : Option String :=
  lib.bcrypt.generate salt (utf8Bytes password)

/-- `CheckPassword`: does it return no error? -/
def checkPassword (lib : Libs σ) (hash password : String) : Bool :=
  lib.bcrypt.compare hash (utf8Bytes password)

/-- Seven days. -/
def tokenLifetime : Nat := 7 * 24 * 3600

/-- `GenerateToken`. -/
def generateToken (lib : Libs σ) (env : AuthEnv σ) (userID : UUID)
    (username secret : String) : Option String :=
  lib.signedString ⟨userID, username, env.expiryNow + tokenLifetime, env.issueNow⟩
    (utf8Bytes secret)

/-! ## `handler.go` -/

/-- A response body. -/
inductive Answer where
  | error (text : String)
  | session (token : String) (userID : UUID) (username : String)
  deriving DecidableEq, Repr

structure Response where
  status : Nat
  body : Answer
  deriving DecidableEq, Repr

/-- `Handler`; its pool is the store the handlers are given. -/
structure Handler (σ : Type) where
  lib : Libs σ
  jwtSecret : String

/-- `Register`: the tables afterwards and the response. -/
def Handler.register (h : Handler σ) (db : Db) (env : AuthEnv σ) (body : List UInt8) :
    Db × Response :=
  match bindJSON h.lib.jsonError registerRequest body with
  | .error text => (db, ⟨400, .error text⟩)
  | .ok req =>
      match hashPassword h.lib env.salt req.password with
      | none => (db, ⟨500, .error "failed to hash password"⟩)
      | some hash =>
          match db.createUser env.toUserEnv req.username hash with
          | .error _ => (db, ⟨409, .error "username already taken"⟩)
          | .ok (db', user) =>
              match generateToken h.lib env user.id user.username h.jwtSecret with
              | none => (db', ⟨500, .error "failed to generate token"⟩)
              | some token => (db', ⟨201, .session token user.id user.username⟩)

/-- `Login`. -/
def Handler.login (h : Handler σ) (db : Db) (env : AuthEnv σ) (body : List UInt8) :
    Response :=
  match bindJSON h.lib.jsonError loginRequest body with
  | .error text => ⟨400, .error text⟩
  | .ok req =>
      match db.getUserByUsername env.toUserEnv req.username with
      | .error .noRows => ⟨401, .error "invalid credentials"⟩
      | .error _ => ⟨500, .error "database error"⟩
      | .ok user =>
          if checkPassword h.lib user.passwordHash req.password then
            match generateToken h.lib env user.id user.username h.jwtSecret with
            | none => ⟨500, .error "failed to generate token"⟩
            | some token => ⟨200, .session token user.id user.username⟩
          else ⟨401, .error "invalid credentials"⟩

-- ── Hashing and comparing strings ─────────────────────────────────────────────

variable {h : Handler σ} {db : Db} {env : AuthEnv σ} {body : List UInt8} {req : Credentials}
  {hash : String}

theorem hashPassword_iff (hlib : h.lib.Lawful) (salt : σ) (password : String) :
    (∃ hash, hashPassword h.lib salt password = some hash) ↔
      (utf8Bytes password).length ≤ maxPasswordBytes :=
  hlib.bcrypt.generate_iff salt (utf8Bytes password)

/-- **A STORED HASH FITS ONE PASSWORD** exactly when the password has fewer than 72
    bytes. -/
theorem checkPassword_iff (hlib : h.lib.Lawful) {salt : σ} {password : String}
    (hpass : NulFree password) (hhash : hashPassword h.lib salt password = some hash) :
    (∀ q, q ≠ "" → (checkPassword h.lib hash q = true ↔ q = password)) ↔
      (utf8Bytes password).length < maxPasswordBytes := by
  have hmore : ∃ q ∈ { q : String | q ≠ "" }, q ≠ password ∧
      ∃ rest, utf8Bytes q = utf8Bytes password ++ rest := by
    refine ⟨password ++ "a", ?_, ?_, utf8Bytes "a", utf8Bytes_append password "a"⟩
    · intro hnil
      have hlen := congrArg String.length hnil
      rw [String.length_append] at hlen
      exact absurd hlen (Nat.succ_ne_zero _)
    · intro heq
      have hlen := congrArg String.length heq
      rw [String.length_append] at hlen
      exact absurd hlen (Nat.succ_ne_self _)
  exact hlib.bcrypt.tells_iff utf8Bytes_injective hmore (zero_notMem_utf8Bytes hpass) hhash

-- ── What the handlers do ──────────────────────────────────────────────────────

theorem register_unhashable (hbind : bindJSON h.lib.jsonError registerRequest body = .ok req)
    (hhash : hashPassword h.lib env.salt req.password = none) :
    h.register db env body = (db, ⟨500, .error "failed to hash password"⟩) := by
  rw [Handler.register]
  simp only [hbind, hhash]

/-- **What `Register` does** with a password it can hash. -/
theorem register_hashed (hlib : h.lib.Lawful)
    (hbind : bindJSON h.lib.jsonError registerRequest body = .ok req)
    (hhash : hashPassword h.lib env.salt req.password = some hash)
    (hok : env.ok .insertUser = true) (hfresh : env.newUser ∉ db.users.keys)
    (huser : NulFree req.username) (hfree : ¬ db.UsernameTaken req.username) :
    ∃ db' token,
      h.register db env body = (db', ⟨201, .session token env.newUser req.username⟩) ∧
        ⟨env.newUser, req.username, hash⟩ ∈ db'.users.rows := by
  have hnul : NulFree hash := hlib.hash_nulFree _ _ _ hhash
  obtain ⟨db', hcreate⟩ := createUser_of_free hok huser hnul hfree hfresh
  obtain ⟨token, htoken⟩ := hlib.signs
    ⟨env.newUser, req.username, env.expiryNow + tokenLifetime, env.issueNow⟩
    (utf8Bytes h.jwtSecret)
  refine ⟨db', token, ?_, ?_⟩
  · rw [Handler.register]
    simp only [hbind, hhash, hcreate, generateToken, htoken]
  · rw [(createUser_ok hcreate).2.2]
    exact List.mem_concat_self

/-- **`Register` writes nothing but one new row**, for a name nobody had. -/
theorem register_writes (h : Handler σ) (db : Db) (env : AuthEnv σ) (body : List UInt8) :
    (h.register db env body).1 = db ∨
      ∃ req hash, bindJSON h.lib.jsonError registerRequest body = .ok req ∧
        hashPassword h.lib env.salt req.password = some hash ∧
        ¬ db.UsernameTaken req.username ∧
        (h.register db env body).1.users.rows
          = db.users.rows ++ [⟨env.newUser, req.username, hash⟩] := by
  rw [Handler.register]
  cases hbind : bindJSON h.lib.jsonError registerRequest body with
  | error text => exact Or.inl rfl
  | ok req =>
      cases hhash : hashPassword h.lib env.salt req.password with
      | none => exact Or.inl (by simp only [hhash])
      | some hash =>
          cases hcreate : db.createUser env.toUserEnv req.username hash with
          | error e => exact Or.inl (by simp only [hhash, hcreate])
          | ok r =>
              obtain ⟨db', user⟩ := r
              obtain ⟨hrow, hfree, hrows⟩ := createUser_ok hcreate
              refine Or.inr ⟨req, hash, rfl, hhash, hfree, ?_⟩
              rw [← hrow, ← hrows]
              simp only [hhash, hcreate]
              split <;> rfl

/-- **`Login` as the user of a stored row** succeeds exactly when the password fits its
    hash. -/
theorem login_stored (hlib : h.lib.Lawful) {u : User} (hu : u ∈ db.users.rows)
    (huser : NulFree u.username) (hok : env.ok .selectUser = true)
    (hbind : bindJSON h.lib.jsonError loginRequest body = .ok req)
    (hname : u.username = req.username) :
    (h.login db env body).status = 200 ↔
      checkPassword h.lib u.passwordHash req.password = true := by
  have hget : db.getUserByUsername env.toUserEnv req.username = .ok u :=
    getUserByUsername_ok_iff.mpr ⟨⟨hok, hname ▸ huser⟩, hu, hname⟩
  obtain ⟨token, htoken⟩ := hlib.signs
    ⟨u.id, u.username, env.expiryNow + tokenLifetime, env.issueNow⟩ (utf8Bytes h.jwtSecret)
  rw [Handler.login]
  simp only [hbind, hget, generateToken, htoken]
  split
  · rename_i hfits
    exact iff_of_true rfl hfits
  · rename_i hfits
    exact iff_of_false (fun h => by cases h) hfits

/-- **A SESSION IS ITS OWNER'S**: whatever the libraries do, `Login` opens one only for the
    stored user of the given name, and only if the password fits the user's hash. -/
theorem login_session (h : Handler σ) (db : Db) (env : AuthEnv σ) (body : List UInt8)
    {status : Nat} {token username : String} {userID : UUID}
    (hlogin : h.login db env body = ⟨status, .session token userID username⟩) :
    ∃ req, bindJSON h.lib.jsonError loginRequest body = .ok req ∧ req.username = username ∧
      ∃ u ∈ db.users.rows, u.id = userID ∧ u.username = username ∧
        checkPassword h.lib u.passwordHash req.password = true := by
  rw [Handler.login] at hlogin
  split at hlogin
  · cases hlogin
  · rename_i req hbind
    split at hlogin
    · cases hlogin
    · cases hlogin
    · rename_i u hget
      obtain ⟨-, hu, hname⟩ := getUserByUsername_ok_iff.mp hget
      split at hlogin
      · rename_i hfits
        split at hlogin
        · cases hlogin
        · cases hlogin
          exact ⟨req, hbind, hname.symm, u, hu, rfl, rfl, hfits⟩
      · cases hlogin

end PeerAuth
