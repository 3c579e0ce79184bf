import PeerChat.AuthRunProofs
import PeerChat.GoStringsProofs
import PeerChat.SignedTokenProofs

/-! # `ParseToken` and the `JWTAuth` middleware

    A request presents its token in the `Authorization` header or, failing that,
    in the query.  `ParseToken` hands the secret only to HMAC tokens, so the
    signature that counts is the one `GenerateToken` makes: to the middleware the
    `jwt` package is a scheme of signed tokens under `JWT_SECRET`
    (`Jwt.scheme_lawful`). -/

namespace PeerAuth

open PeerEnv PeerStore PeerHandler GoStrings SignedToken

variable {σ : Type}

/-! ## `ParseToken` -/

/-- The signing methods `ParseToken` tells apart. -/
inductive SigningMethod where
  | hmac
  | other
  deriving DecidableEq, Repr

/-- A parsed `jwt.Token`. -/
structure Token where
  claims : Claims
  valid : Bool
  deriving DecidableEq, Repr

/-- The parsing side of package `jwt`. -/
structure Jwt where
  /-- The signing text, and the signature the last part decodes to: base64 has more than one
      spelling for some signatures. -/
  content : String → Option (String × List UInt8)
  /-- The method the header names. -/
  method : String → Option SigningMethod
  /-- `Method.Verify`. -/
  verifies : SigningMethod → String → List UInt8 → List UInt8 → Bool
  /-- `ParseWithClaims`, with the key function and the time. -/
  parseWithClaims : String → (SigningMethod → Option (List UInt8)) → Nat → Option Token

/-- **What is relied on**: a signed string is text, and in every spelling parses with the
    claims it was made from until they expire; claims that expire are refused from then on;
    and whatever parses has a signature that verifies under the key the key function
    returned for its method. -/
structure Jwt.Lawful (jwt : Jwt) (lib : Libs σ) : Prop where
  signed_ne : ∀ {claims key t}, lib.signedString claims key = some t →
    jwt.content "" ≠ jwt.content t
  parses : ∀ {claims key t t'}, lib.signedString claims key = some t →
    jwt.content t' = jwt.content t → ∀ keyFunc now, keyFunc .hmac = some key →
      jwt.parseWithClaims t' keyFunc now
        = if now < claims.expiresAt then some ⟨claims, true⟩ else none
  expired : ∀ {token key t t' keyFunc now}, lib.signedString token.claims key = some t →
    jwt.parseWithClaims t' keyFunc now = some token → now < token.claims.expiresAt
  checks : ∀ {t keyFunc now token}, jwt.parseWithClaims t keyFunc now = some token →
    ∃ text sig m key, jwt.content t = some (text, sig) ∧ jwt.method text = some m ∧
      keyFunc m = some key ∧ jwt.verifies m text sig key = true

/-- A signed string is not empty. -/
theorem Jwt.Lawful.text {jwt : Jwt} {lib : Libs σ} (h : jwt.Lawful lib) {claims : Claims}
    {key : List UInt8} {t : String} (hsigned : lib.signedString claims key = some t) : t ≠ "" := by
  rintro rfl
  exact h.signed_ne hsigned rfl

/-- The key function of `ParseToken`: "unexpected signing method" for all but HMAC. -/
def secretFor (secret : String) : SigningMethod → Option (List UInt8)
  | .hmac => some (utf8Bytes secret)
  | .other => none

/-- `ParseToken`; `none` is an error. -/
def parseToken (jwt : Jwt) (now : Nat) (tokenStr secret : String) : Option Claims :=
  match jwt.parseWithClaims tokenStr (secretFor secret) now with
  | none => none
  | some token => if token.valid then some token.claims else none

/-- The tokens of a secret, as `GenerateToken` signs and `ParseToken` opens them. -/
def Jwt.scheme (jwt : Jwt) (lib : Libs σ) :
    Scheme Claims String String (Option (String × List UInt8)) where
  sign claims secret := lib.signedString claims (utf8Bytes secret)
  content := jwt.content
  verifies secret content :=
    content.any fun c => jwt.verifies .hmac c.1 c.2 (utf8Bytes secret)
  openAt secret now t := parseToken jwt now t secret

/-- A token `ParseToken` accepts has been parsed. -/
theorem parseToken_ok {jwt : Jwt} {now : Nat} {t secret : String} {claims : Claims}
    (h : parseToken jwt now t secret = some claims) :
    ∃ token, jwt.parseWithClaims t (secretFor secret) now = some token ∧
      token.claims = claims := by
  rw [parseToken] at h
  split at h
  · cases h
  · rename_i token htoken
    split at h
    · exact ⟨token, htoken, Option.some.inj h⟩
    · cases h

/-- **`ParseToken` OPENS WHAT `GenerateToken` SIGNS.** -/
theorem Jwt.scheme_lawful {jwt : Jwt} {lib : Libs σ} (h : jwt.Lawful lib) :
    (jwt.scheme lib).Lawful Claims.expiresAt where
  opens {claims secret t t'} hsigned hcontent now := by
    show parseToken jwt now t' secret = _
    rw [parseToken, h.parses hsigned hcontent (secretFor secret) now rfl]
    by_cases hnow : now < claims.expiresAt
    · rw [if_pos hnow, if_pos hnow]
      rfl
    · rw [if_neg hnow, if_neg hnow]
  expired {claims secret t t' now} hsigned hopen := by
    obtain ⟨token, htoken, rfl⟩ := parseToken_ok hopen
    exact h.expired hsigned htoken
  checks {secret now t claims} hopen := by
    obtain ⟨token, htoken, -⟩ := parseToken_ok hopen
    -- the key function has answered, so the method is HMAC and the key the secret
    obtain ⟨text, sig, m, key, hcontent, -, hkey, hv⟩ := h.checks htoken
    show (jwt.content t).any _ = true
    rw [hcontent, Option.any_some]
    cases m with
    | hmac =>
        rw [← Option.some.inj hkey] at hv
        exact hv
    | other => cases hkey

/-! ## `JWTAuth` -/

/-- What a request presents: its `Authorization` header and its `token` parameter, each
    empty when absent. -/
structure Presented where
  authorization : String
  token : String
  deriving DecidableEq, Repr

/-- The token of an `Authorization` header; empty if there is none. -/
def bearerToken (header : String) : String :=
  match splitN header ' ' 2 with
  | [scheme, tokenStr] => if scheme = "Bearer" then tokenStr else ""
  | _ => ""

/-- `tokenStr`: the header's, else the parameter. -/
def Presented.tokenStr (p : Presented) : String :=
  let tokenStr := if p.authorization ≠ "" then bearerToken p.authorization else ""
  if tokenStr = "" then p.token else tokenStr

/-- `JWTAuth`: the `user_id` and the `username` it sets, or the response it aborts with. -/
def jwtAuth (jwt : Jwt) (jwtSecret : String) (now : Nat) (p : Presented) :
    Except HttpError (UUID × String) :=
  if p.tokenStr = "" then .error ⟨401, "missing token"⟩
  else match parseToken jwt now p.tokenStr jwtSecret with
    | none => .error ⟨401, "invalid token"⟩
    | some claims => .ok (claims.userID, claims.username)

/-- A header carries a token exactly when it is `Bearer `, then the token. -/
theorem bearerToken_eq {header t : String} (ht : t ≠ "") :
    bearerToken header = t ↔ header = "Bearer " ++ t := by
  have hword : ' ' ∉ "Bearer".toList := by decide
  have hbearer : "Bearer" ++ String.singleton ' ' = "Bearer " := by decide
  rw [bearerToken]
  constructor
  · intro h
    split at h
    · rename_i scheme tokenStr hsplit
      by_cases hscheme : scheme = "Bearer"
      · rw [if_pos hscheme] at h
        rw [(splitN_two.mp hsplit).1, hscheme, h, hbearer]
      · rw [if_neg hscheme] at h
        exact absurd h.symm ht
    · exact absurd h.symm ht
  · rintro rfl
    rw [← hbearer, splitN_two.mpr ⟨rfl, hword⟩]
    exact if_pos rfl

/-- The header goes first. -/
theorem tokenStr_of_header (t query : String) (ht : t ≠ "") :
    Presented.tokenStr ⟨"Bearer " ++ t, query⟩ = t := by
  have hne : "Bearer " ++ t ≠ "" := by
    intro h
    have hlen := congrArg String.length h
    rw [String.length_append] at hlen
    exact absurd hlen (Nat.succ_ne_zero _ ∘ fun h => (Nat.add_eq_zero_iff.mp h).1)
  rw [Presented.tokenStr, if_pos hne, (bearerToken_eq ht).mpr rfl, if_neg ht]

theorem tokenStr_of_query (t : String) : Presented.tokenStr ⟨"", t⟩ = t := rfl

/-- **The middleware opens the token it is shown.** -/
theorem jwtAuth_ok {jwt : Jwt} {secret : String} {now : Nat} {p : Presented}
    {userID : UUID} {username : String} :
    jwtAuth jwt secret now p = .ok (userID, username) ↔
      p.tokenStr ≠ "" ∧ ∃ claims, parseToken jwt now p.tokenStr secret = some claims ∧
        claims.userID = userID ∧ claims.username = username := by
  rw [jwtAuth]
  by_cases hempty : p.tokenStr = ""
  · rw [if_pos hempty]
    exact iff_of_false (fun h => by cases h) (fun h => h.1 hempty)
  · rw [if_neg hempty]
    cases hparse : parseToken jwt now p.tokenStr secret with
    | none =>
        refine iff_of_false (fun h => by cases h) ?_
        rintro ⟨-, claims, hclaims, -⟩
        cases hclaims
    | some claims =>
        constructor
        · intro h
          have hpair := Except.ok.inj h
          exact ⟨hempty, claims, rfl, congrArg Prod.fst hpair, congrArg Prod.snd hpair⟩
        · rintro ⟨-, claims', hclaims, rfl, rfl⟩
          rw [Option.some.inj hclaims]

/-! ## The sessions the handlers open -/

/-- The claims of a session's token. -/
def sessionClaims (env : AuthEnv σ) (userID : UUID) (username : String) : Claims :=
  ⟨userID, username, env.expiryNow + tokenLifetime, env.issueNow⟩

/-- What a response hands out. -/
def issued (env : AuthEnv σ) : Answer → List (Claims × String)
  | .error _ => []
  | .session token userID username => [(sessionClaims env userID username, token)]

variable {h : Handler σ}

/-- `Register` either leaves the tables alone or runs `CreateUser`. -/
theorem register_db (h : Handler σ) (db : Db) (env : AuthEnv σ) (body : List UInt8) :
    (h.register db env body).1 = db ∨ ∃ username hash u,
      db.createUser env.toUserEnv username hash = .ok ((h.register db env body).1, u) := by
  rw [Handler.register]
  split
  · exact Or.inl rfl
  · rename_i req hbind
    split
    · exact Or.inl rfl
    · rename_i hash hhash
      cases hcreate : db.createUser env.toUserEnv req.username hash with
      | error e => exact Or.inl rfl
      | ok r =>
          refine Or.inr ⟨req.username, hash, r.2, ?_⟩
          rw [hcreate]
          simp only
          split <;> rfl

/-- Every token `Register` hands out is signed, for a user it has stored. -/
theorem register_session (db : Db) (env : AuthEnv σ) (body : List UInt8) {token : String}
    {userID : UUID} {username : String}
    (hbody : (h.register db env body).2.body = .session token userID username) :
    h.lib.signedString (sessionClaims env userID username) (utf8Bytes h.jwtSecret) = some token ∧
      ∃ u ∈ (h.register db env body).1.users.rows, u.id = userID ∧ u.username = username := by
  rw [Handler.register] at hbody ⊢
  cases hbind : bindJSON h.lib.jsonError registerRequest body with
  | error text =>
      rw [hbind] at hbody
      cases hbody
  | ok req =>
      simp only [hbind] at hbody ⊢
      cases hhash : hashPassword h.lib env.salt req.password with
      | none =>
          rw [hhash] at hbody
          cases hbody
      | some hash =>
          simp only [hhash] at hbody ⊢
          cases hcreate : db.createUser env.toUserEnv req.username hash with
          | error e =>
              rw [hcreate] at hbody
              cases hbody
          | ok r =>
              obtain ⟨db', user⟩ := r
              obtain ⟨-, -, hrows⟩ := createUser_ok hcreate
              simp only [hcreate] at hbody ⊢
              cases htoken : generateToken h.lib env user.id user.username h.jwtSecret with
              | none =>
                  rw [htoken] at hbody
                  cases hbody
              | some t =>
                  simp only [htoken] at hbody ⊢
                  cases hbody
                  refine ⟨htoken, user, ?_, rfl, rfl⟩
                  rw [hrows]
                  exact List.mem_concat_self

/-- It hands one out to the username it was given. -/
theorem register_username (db : Db) (env : AuthEnv σ) (body : List UInt8) {token : String}
    {userID : UUID} {username : String}
    (hbody : (h.register db env body).2.body = .session token userID username) :
    ∃ req, bindJSON h.lib.jsonError registerRequest body = .ok req ∧
      req.username = username := by
  rw [Handler.register] at hbody
  split at hbody
  · cases hbody
  · rename_i req hbind
    split at hbody
    · cases hbody
    · split at hbody
      · cases hbody
      · rename_i user hcreate
        split at hbody
        · cases hbody
        · cases hbody
          refine ⟨req, hbind, ?_⟩
          rw [(createUser_ok hcreate).1]

/-- Every token `Login` hands out is signed, for a stored user. -/
theorem login_issues (db : Db) (env : AuthEnv σ) (body : List UInt8) {token : String}
    {userID : UUID} {username : String}
    (hbody : (h.login db env body).body = .session token userID username) :
    h.lib.signedString (sessionClaims env userID username) (utf8Bytes h.jwtSecret) = some token ∧
      ∃ u ∈ db.users.rows, u.id = userID ∧ u.username = username := by
  rw [Handler.login] at hbody
  split at hbody
  · cases hbody
  · split at hbody
    · cases hbody
    · cases hbody
    · rename_i u hget
      obtain ⟨-, hu, -⟩ := getUserByUsername_ok_iff.mp hget
      split at hbody
      · split at hbody
        · cases hbody
        · rename_i htoken
          cases hbody
          exact ⟨htoken, u, hu, rfl, rfl⟩
      · cases hbody

end PeerAuth
