import PeerChat.AuthProofs
import PeerChat.ChatStoreProofs
import PeerChat.GroupRunProofs

/-! # Registering, and logging in afterwards

    The rows of `users` are only ever added to: `Register` appends one, and no
    step of any other handler writes the table.  So what `Register` has stored
    is what every later `Login` compares with, and the two agree on a
    credential exactly when the stored hash fits the registered password and
    no other. -/

namespace PeerAuth

open PeerEnv PeerStore PasswordHash KeyedTable PeerHub PeerFrame PeerWorld

variable {σ : Type}

/-! ## Who writes the tables -/

/-- One step of anybody on the tables: a registration, a statement of the goroutines of a
    connection, of a `GET /messages`, or of a group handler.  A `Login` only reads. -/
inductive Moves (h : Handler σ) : Db → Db → Prop where
  | registered (db : Db) (env : AuthEnv σ) (body : List UInt8) :
      Moves h db (h.register db env body).1
  | connection {w w' : World} {env : Env} {t t' : PeerServer.Thread}
      {new : List PeerServer.Thread}
      (hstep : PeerServer.stepThread w env t = some (w', t', new)) : Moves h w.db w'.db
  | request {db db' : Db} {env : Env} {r r' : PeerChatStore.Request}
      (hstep : PeerChatStore.stepRequest db env r = some (db', r')) : Moves h db db'
  | group {db db' : Db} {hub hub' : Hub Frame} {env : Env} {t t' : PeerGroupRun.Thread}
      (hstep : PeerGroupRun.stepThread db hub env t = some (db', hub', t')) : Moves h db db'

/-- The tables later on. -/
def Afterwards (h : Handler σ) : Db → Db → Prop := Relation.ReflTransGen (Moves h)

/-- No statement of a connection writes to `users`. -/
theorem connection_users {w w' : World} {env : Env} {t t' : PeerServer.Thread}
    {new : List PeerServer.Thread}
    (hstep : PeerServer.stepThread w env t = some (w', t', new)) :
    w'.db.users = w.db.users := by
  cases PeerServer.threadStep_of_stepThread hstep with
  | quiet hdb hhub haddr hq => rw [hdb]
  | created call db hc => exact (createChat_ok hc).users
  | stored call chatID db stored hi => exact (insertMessage_ok hi).2.users
  | marked call stored => exact PeerHandler.markDelivered_users w env stored.id
  | drainMarked c row rest => exact PeerHandler.markDelivered_users w env row.message.id
  | _ => rfl

/-- No statement of `FindOrCreateChat` writes to `users`. -/
theorem lookup_users {db db' : Db} {env : Env} {l l' : PeerChatPair.Lookup}
    (hstep : PeerChatPair.stepLookup db env l = some (db', l')) : db'.users = db.users := by
  cases PeerChatPair.lookupStep_of_stepLookup hstep with
  | created a b db' hc => exact (createChat_ok hc).users
  | _ => rfl

/-- No statement of `GET /messages` writes to `users`. -/
theorem request_users {db db' : Db} {env : Env} {r r' : PeerChatStore.Request}
    (hstep : PeerChatStore.stepRequest db env r = some (db', r')) : db'.users = db.users := by
  cases r with
  | lookup l =>
      cases l with
      | returned a b c => cases hstep; rfl
      | failed a b => cases hstep; rfl
      | _ =>
          obtain ⟨p, hp, heq⟩ := Option.map_eq_some_iff.mp hstep
          cases heq
          exact lookup_users hp
  | history chatID =>
      simp only [PeerChatStore.stepRequest] at hstep
      split at hstep <;> (cases hstep; rfl)
  | answered rows => cases hstep
  | failed => cases hstep

/-- No statement of a group handler writes to `users`. -/
theorem group_users {db db' : Db} {hub hub' : Hub Frame} {env : Env}
    {t t' : PeerGroupRun.Thread}
    (hstep : PeerGroupRun.stepThread db hub env t = some (db', hub', t')) :
    db'.users = db.users := by
  cases PeerGroupRun.threadStep_of_stepThread hstep with
  | stored u n call db' stored hi =>
      obtain ⟨-, -, -, -, husers⟩ := insertGroupMessage_ok hi
      exact husers
  | created u n db' group hc => exact createGroup_users hc
  | added a g u db' ha => exact addGroupMember_users ha
  | _ => rfl

/-- One step keeps the stored users. -/
theorem users_of_move {h : Handler σ} {db db' : Db} (hm : Moves h db db') :
    ∀ u ∈ db.users.rows, u ∈ db'.users.rows := by
  intro u hu
  cases hm with
  | registered _ env body =>
      rcases register_writes h db env body with hsame | ⟨req, hash, -, -, -, hrows⟩
      · rw [hsame]
        exact hu
      · rw [hrows]
        exact List.mem_append_left _ hu
  | connection hstep => rw [connection_users hstep]; exact hu
  | request hstep => rw [request_users hstep]; exact hu
  | group hstep => rw [group_users hstep]; exact hu

/-- **A STORED USER STAYS**, with the hash it was stored with. -/
theorem users_afterwards {h : Handler σ} {db later : Db} (hrun : Afterwards h db later) :
    ∀ u ∈ db.users.rows, u ∈ later.users.rows := by
  induction hrun with
  | refl => exact fun _ hu => hu
  | tail _ hm ih => exact fun u hu => users_of_move hm u (ih u hu)

/-! ## Agreement -/

/-- The database is working: the insert goes through and its id is a new one. -/
structure Working (db : Db) (env : UserEnv) : Prop where
  inserts : env.ok .insertUser = true
  fresh : env.newUser ∉ db.users.keys

/-- The credential passes `Register`'s validators, holds no NUL character, and nobody has
    its username yet. -/
structure Accepted (db : Db) (cred : Credentials) : Prop where
  username : 2 ≤ cred.username.length ∧ cred.username.length ≤ 30
  password : 6 ≤ cred.password.length
  username_nulFree : NulFree cred.username
  password_nulFree : NulFree cred.password
  free : ¬ db.UsernameTaken cred.username

/-- Credentials that are accepted pass the binding tags. -/
theorem Accepted.check {db : Db} {cred : Credentials} (hcred : Accepted db cred) :
    registerRequest.check cred = [] :=
  registerRequest_check.mpr ⟨hcred.username, hcred.password⟩

/-- Credentials that are accepted have a name. -/
theorem Accepted.username_ne {db : Db} {cred : Credentials} (hcred : Accepted db cred) :
    cred.username ≠ "" := by
  intro hnil
  have hlen := hcred.username.1
  rw [hnil] at hlen
  exact absurd hlen (by decide)

/-- **REGISTRATION AND LOGIN AGREE** on the credential: `Register` answers with a session,
    and from then on a `Login` with the username and a password that is not empty
    succeeds exactly when the password is the registered one. -/
structure CredentialsAgree (h : Handler σ) (db : Db) (env : AuthEnv σ) (body : List UInt8)
    (cred : Credentials) : Prop where
  registered : ∃ token,
    (h.register db env body).2 = ⟨201, .session token env.newUser cred.username⟩
  logins : ∀ later, Afterwards h (h.register db env body).1 later →
    ∀ (env' : AuthEnv σ) (body' : List UInt8) (password : String),
      env'.ok .selectUser = true → password ≠ "" →
      decodeCredentials body' = some ⟨cred.username, password⟩ →
      ((h.login later env' body').status = 200 ↔ password = cred.password)

section

variable {h : Handler σ} {db : Db} {env : AuthEnv σ} {body : List UInt8} {cred : Credentials}

/-- A later `Login` compares with the hash of the row. -/
theorem login_afterwards (hlib : h.lib.Lawful) {later : Db} (hrun : Afterwards h db later)
    {u : User} (hu : u ∈ db.users.rows) (huser : NulFree u.username) (hne : u.username ≠ "")
    {env' : AuthEnv σ} {body' : List UInt8} {password : String}
    (hok : env'.ok .selectUser = true) (hpass : password ≠ "")
    (hbody : decodeCredentials body' = some ⟨u.username, password⟩) :
    (h.login later env' body').status = 200 ↔
      checkPassword h.lib u.passwordHash password = true := by
  have hbind : bindJSON h.lib.jsonError loginRequest body' = .ok ⟨u.username, password⟩ :=
    bindJSON_ok_iff.mpr ⟨hbody, loginRequest_check.mpr ⟨hne, hpass⟩⟩
  exact login_stored hlib (users_afterwards hrun u hu) huser hok hbind rfl

/-- Once the password is hashed, the two agree exactly when the hash fits it alone. -/
theorem agree_iff_fits (hlib : h.lib.Lawful) (hdb : Working db env.toUserEnv)
    (hcred : Accepted db cred) (hbody : decodeCredentials body = some cred)
    {hash : String} (hhash : hashPassword h.lib env.salt cred.password = some hash) :
    CredentialsAgree h db env body cred ↔
      ∀ q, q ≠ "" → (checkPassword h.lib hash q = true ↔ q = cred.password) := by
  obtain ⟨db', token, hreg, hrow⟩ := register_hashed hlib
    (bindJSON_ok_iff.mpr ⟨hbody, hcred.check⟩) hhash hdb.inserts hdb.fresh
    hcred.username_nulFree hcred.free
  constructor
  · intro hagree q hq
    have hbody' := decodeCredentials_json ⟨cred.username, q⟩
    have hnow : Afterwards h (h.register db env body).1 db' := by
      rw [hreg]
      exact Relation.ReflTransGen.refl
    rw [← hagree.logins db' hnow { env with ok := fun _ => true } _ q rfl hq hbody']
    exact (login_afterwards hlib Relation.ReflTransGen.refl hrow hcred.username_nulFree
      hcred.username_ne rfl hq hbody').symm
  · intro hfits
    refine ⟨⟨token, by rw [hreg]⟩, ?_⟩
    intro later hrun env' body' password hok hpass hbody'
    rw [hreg] at hrun
    rw [← hfits password hpass]
    exact login_afterwards hlib hrun hrow hcred.username_nulFree hcred.username_ne hok hpass
      hbody'

/-- A password that cannot be hashed is not registered. -/
theorem disagree_of_unhashable (hcred : Accepted db cred)
    (hbody : decodeCredentials body = some cred)
    (hhash : hashPassword h.lib env.salt cred.password = none) :
    ¬ CredentialsAgree h db env body cred := by
  rintro ⟨⟨token, hregistered⟩, -⟩
  rw [register_unhashable (bindJSON_ok_iff.mpr ⟨hbody, hcred.check⟩) hhash] at hregistered
  cases hregistered

end

/-! ## A library that behaves as it should -/

/-- Bytes as text, one character each and none of them NUL. -/
def hashText (p : List UInt8) : String := String.ofList (p.map fun b => Char.ofNat (b.toNat + 1))

theorem toNat_ofNat_succ (b : UInt8) : (Char.ofNat (b.toNat + 1)).toNat = b.toNat + 1 := by
  have hb := b.toNat_lt
  rw [Char.toNat_ofNat]
  exact if_pos (Or.inl (by omega))

/-- The example's hashes tell the passwords apart. -/
theorem hashText_injective : Function.Injective hashText := by
  intro p q hpq
  refine List.map_injective_iff.mpr ?_ (String.ofList_injective hpq)
  intro b c hbc
  have hnat := congrArg Char.toNat hbc
  simp only [toNat_ofNat_succ] at hnat
  exact UInt8.toNat_inj.mp (Nat.succ.inj hnat)

/-- The example's hashes can be stored. -/
theorem hashText_nulFree (p : List UInt8) : NulFree (hashText p) := by
  intro hzero
  rw [hashText, String.toList_ofList] at hzero
  obtain ⟨b, -, hb⟩ := List.mem_map.mp hzero
  have hnat := congrArg Char.toNat hb
  rw [toNat_ofNat_succ] at hnat
  exact Nat.succ_ne_zero _ hnat

/-- Hashes that keep the password, tokens that name their user. -/
def plainLibs : Libs Unit where
  generateFromPassword salt p _ := (keeping maxPasswordBytes hashText).generate salt p
  compareHashAndPassword := (keeping maxPasswordBytes hashText).compare
  signedString claims _ := some claims.username
  jsonError _ _ := "EOF"

/-- The example's library keeps the assumptions on bcrypt. -/
theorem plainLibs_lawful : plainLibs.Lawful where
  bcrypt := keeping_lawful maxPasswordBytes hashText_injective _
  hash_nulFree _ p hash hhash := by
    have hsome : (if maxPasswordBytes < p.length then none else some (hashText p)) = some hash :=
      hhash
    split at hsome
    · cases hsome
    · rw [← Option.some.inj hsome]
      exact hashText_nulFree p
  signs claims _ := ⟨claims.username, rfl⟩

def plainHandler : Handler Unit := ⟨plainLibs, "key"⟩

/-- A request that meets a working database. -/
def daveEnv : AuthEnv Unit := ⟨⟨fun _ => true, ⟨9⟩⟩, (), 1, 1⟩

/-! ## When they agree -/

/-- **THE LONGEST PASSWORD THAT WORKS HAS 71 BYTES.**  For every credential `Register`
    accepts, with the database working, registration and login agree exactly when the
    password has fewer than 72 bytes: a longer one is not registered, and one of 72
    opens the account to everything that begins with it. -/
theorem credentials_agree_iff {h : Handler σ} (hlib : h.lib.Lawful) {db : Db}
    {env : AuthEnv σ} (hdb : Working db env.toUserEnv) {cred : Credentials}
    (hcred : Accepted db cred) {body : List UInt8}
    (hbody : decodeCredentials body = some cred) :
    CredentialsAgree h db env body cred ↔ (utf8Bytes cred.password).length < 72 := by
  cases hhash : hashPassword h.lib env.salt cred.password with
  | none =>
      refine iff_of_false (disagree_of_unhashable hcred hbody hhash) fun hlt => ?_
      obtain ⟨hash, hsome⟩ :=
        (hashPassword_iff hlib env.salt cred.password).mpr (Nat.le_of_lt hlt)
      rw [hhash] at hsome
      cases hsome
  | some hash =>
      rw [agree_iff_fits hlib hdb hcred hbody hhash]
      exact checkPassword_iff hlib hcred.password_nulFree hhash

/-- Dave's credentials agree. -/
theorem credentials_agree_dave :
    CredentialsAgree plainHandler threeUsers daveEnv
      (Credentials.mk "dave" "secret").json ⟨"dave", "secret"⟩ :=
  (credentials_agree_iff plainLibs_lawful ⟨rfl, by decide⟩
    ⟨by decide, by decide, by decide, by decide, by decide⟩
    (decodeCredentials_json ⟨"dave", "secret"⟩)).mpr (by decide)

/-- `n` letters, a byte each. -/
def longPassword (n : Nat) : String := String.ofList (List.replicate n 'a')

theorem longPassword_length (n : Nat) : (longPassword n).length = n := by
  rw [longPassword, String.length_ofList, List.length_replicate]

theorem longPassword_bytes (n : Nat) : (utf8Bytes (longPassword n)).length = n := by
  rw [utf8Bytes, longPassword, String.toList_ofList]
  induction n with
  | zero => rfl
  | succ n ih =>
      rw [List.replicate_succ, List.flatMap_cons, List.length_append, ih]
      exact Nat.add_comm 1 n

/-- A long password is accepted like any other. -/
theorem longPassword_accepted {n : Nat} (h : 6 ≤ n) :
    Accepted threeUsers ⟨"dave", longPassword n⟩ where
  username := by
    show 2 ≤ "dave".length ∧ "dave".length ≤ 30
    decide
  password := by
    rw [longPassword_length]
    exact h
  username_nulFree := by
    show NulFree "dave"
    decide
  password_nulFree := by
    intro hzero
    rw [longPassword, String.toList_ofList] at hzero
    exact absurd (List.eq_of_mem_replicate hzero) (by decide)
  free := by
    show ¬ threeUsers.UsernameTaken "dave"
    decide

/-- **73 LETTERS ARE REFUSED** after they have passed the validators; 72 are taken for
    any password they begin. -/
theorem long_passwords_disagree :
    Working threeUsers daveEnv.toUserEnv ∧
      (Accepted threeUsers ⟨"dave", longPassword 73⟩ ∧
        (plainHandler.register threeUsers daveEnv
          (Credentials.mk "dave" (longPassword 73)).json).2
            = ⟨500, .error "failed to hash password"⟩ ∧
        ¬ CredentialsAgree plainHandler threeUsers daveEnv
          (Credentials.mk "dave" (longPassword 73)).json ⟨"dave", longPassword 73⟩) ∧
      Accepted threeUsers ⟨"dave", longPassword 72⟩ ∧
        ¬ CredentialsAgree plainHandler threeUsers daveEnv
          (Credentials.mk "dave" (longPassword 72)).json ⟨"dave", longPassword 72⟩ := by
  have h73 : Accepted threeUsers ⟨"dave", longPassword 73⟩ := longPassword_accepted (by decide)
  have h72 : Accepted threeUsers ⟨"dave", longPassword 72⟩ := longPassword_accepted (by decide)
  have hwork : Working threeUsers daveEnv.toUserEnv := ⟨rfl, by decide⟩
  have hrefused : hashPassword plainHandler.lib daveEnv.salt (longPassword 73) = none := by
    refine plainLibs_lawful.bcrypt.refuses () (utf8Bytes (longPassword 73)) ?_
    rw [longPassword_bytes]
    decide
  refine ⟨hwork, ⟨h73, ?_, disagree_of_unhashable h73 (decodeCredentials_json _) hrefused⟩,
    h72, ?_⟩
  · rw [register_unhashable (bindJSON_ok_iff.mpr ⟨decodeCredentials_json _, h73.check⟩)
      hrefused]
  · have hlen : (utf8Bytes (longPassword 72)).length = maxPasswordBytes := longPassword_bytes 72
    obtain ⟨hash, hhash⟩ := (hashPassword_iff (h := plainHandler) plainLibs_lawful daveEnv.salt
      (longPassword 72)).mpr (Nat.le_of_eq hlen)
    rw [agree_iff_fits plainLibs_lawful hwork h72 (decodeCredentials_json _) hhash,
      checkPassword_iff plainLibs_lawful h72.password_nulFree hhash, hlen]
    exact Nat.lt_irrefl _

end PeerAuth
