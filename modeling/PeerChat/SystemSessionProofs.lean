import PeerChat.SystemSoundProofs

/-! # Who speaks, and who reads

    What the invariant says of every reachable state, as long as nobody else holds
    `JWT_SECRET`:

    * the middleware lets a request pass exactly when its token opens to the claims
      of one that `Register` or `Login` handed out, and they have not expired
      (`session_iff`);
    * whatever is enqueued, published or handed to a subscription tells who it is
      from, and shows a row that is stored (`frames_attributed`);
    * a direct message reaches its two users and nobody else, over whichever of
      its five ways (`direct_messages_confided`), and a group message only those
      who have been in the group (`group_messages_confided`);
    * every message was stored for somebody who had been handed a token
      (`stored_by_users`). -/

namespace PeerSystem

open PeerEnv KeyedTable PeerHub PeerRouter PeerStore PeerFrame PeerRedis PeerWorld PeerHandler
open PeerDispatch PeerAuth PeerCluster PeerChatStore SignedToken Transition ThreadPool

variable {σ ι : Type} {su : Setup σ} {who : ι → ClientId → UUID × String} {db₀ : Db}
  {ever : UUID → UUID → Prop} {s : System ι}

/-! ## Dave and erin register, and dave writes to erin -/

/-- The libraries that sign the claims of a book. -/
def bookLibs (book : List (Claims × String)) : Libs Unit :=
  { plainLibs with
    signedString := fun claims key =>
      if key = utf8Bytes "key" then (book.find? fun e => e.1 = claims).map Prod.snd else none }

/-- The spelling a book has a token in: line breaks do not count. -/
def spelled (t : String) : String := String.ofList (t.toList.filter fun c => c ≠ '\n')

def bookJwt (book : List (Claims × String)) : Jwt where
  content t := some (spelled t, [])
  method text := if book.any fun e => e.2 = text then some .hmac else none
  verifies m text _ key := m = .hmac ∧ key = utf8Bytes "key" ∧ book.any fun e => e.2 = text
  parseWithClaims t keyFunc now :=
    match book.find? fun e => e.2 = spelled t with
    | none => none
    | some e =>
        if keyFunc .hmac = some (utf8Bytes "key") ∧ now < e.1.expiresAt then some ⟨e.1, true⟩
        else none

/-- What parses has an entry, and has not expired. -/
theorem bookJwt_parses {book : List (Claims × String)} {t : String} {now : Nat}
    {keyFunc : SigningMethod → Option (List UInt8)} {token : Token}
    (h : (bookJwt book).parseWithClaims t keyFunc now = some token) :
    (token.claims, spelled t) ∈ book ∧ keyFunc .hmac = some (utf8Bytes "key") ∧
      now < token.claims.expiresAt := by
  simp only [bookJwt] at h
  split at h
  · cases h
  · rename_i e hfind
    split at h
    · rename_i hkey
      cases h
      have ht : e.2 = spelled t := of_decide_eq_true
        (List.find?_some (p := fun e : Claims × String => decide (e.2 = spelled t)) hfind)
      refine ⟨?_, hkey⟩
      rw [← ht]
      exact List.mem_of_find?_eq_some hfind
    · cases h

/-- A book of tokens that are all different is a lawful library. -/
theorem bookJwt_lawful {book : List (Claims × String)} (hnodup : (book.map Prod.snd).Nodup)
    (hne : "" ∉ book.map Prod.snd) (hplain : ∀ t ∈ book.map Prod.snd, spelled t = t) :
    (bookJwt book).Lawful (bookLibs book) := by
  -- what the book signs it has an entry for
  have hsigned : ∀ {claims key t}, (bookLibs book).signedString claims key = some t →
      key = utf8Bytes "key" ∧ (claims, t) ∈ book ∧ spelled t = t := by
    intro claims key t h
    simp only [bookLibs] at h
    split at h
    · rename_i hkey
      obtain ⟨e, he, rfl⟩ := Option.map_eq_some_iff.mp h
      have hin := List.mem_of_find?_eq_some he
      have hclaims : e.1 = claims :=
        of_decide_eq_true
          (List.find?_some (p := fun e : Claims × String => decide (e.1 = claims)) he)
      rw [← hclaims]
      exact ⟨hkey, hin, hplain _ (List.mem_map_of_mem hin)⟩
    · cases h
  refine ⟨?_, ?_, ?_, ?_⟩
  · intro claims key t h hcontent
    obtain ⟨-, hin, hsame⟩ := hsigned h
    have hempty : spelled "" = spelled t := congrArg Prod.fst (Option.some.inj hcontent)
    rw [hsame] at hempty
    obtain rfl : "" = t := hempty
    exact hne (List.mem_map_of_mem hin)
  · intro claims key t t' h hcontent keyFunc now hkey
    obtain ⟨rfl, hin, hsame⟩ := hsigned h
    have ht : spelled t' = t := by
      rw [← hsame]
      exact congrArg Prod.fst (Option.some.inj hcontent)
    have hfind : book.find? (fun e => e.2 = t) = some (claims, t) := by
      cases hf : book.find? (fun e => e.2 = t) with
      | none => exact absurd (decide_eq_true rfl) (List.find?_eq_none.mp hf (claims, t) hin)
      | some e =>
          have ht : e.2 = t := of_decide_eq_true
            (List.find?_some (p := fun e : Claims × String => decide (e.2 = t)) hf)
          rw [List.inj_on_of_nodup_map hnodup (List.mem_of_find?_eq_some hf) hin ht]
    simp only [bookJwt, ht, hfind, hkey, true_and]
  · intro token key t t' keyFunc now _ h
    exact (bookJwt_parses h).2.2
  · intro t keyFunc now token h
    obtain ⟨hin, hkey, -⟩ := bookJwt_parses h
    have hany : book.any (fun e => e.2 = spelled t) = true :=
      List.any_eq_true.mpr ⟨_, hin, decide_eq_true rfl⟩
    exact ⟨spelled t, [], .hmac, utf8Bytes "key", rfl, if_pos hany, hkey, by simp [bookJwt, hany]⟩

/-- The two tokens of the run. -/
def twoTokens : List (Claims × String) :=
  [(⟨⟨9⟩, "dave", 604801, 1⟩, "d"), (⟨⟨8⟩, "erin", 604801, 1⟩, "e")]

def twoSetup : Setup Unit := ⟨⟨bookLibs twoTokens, "key"⟩, bookJwt twoTokens, plainFormats⟩

/-- The example's library is lawful. -/
theorem twoSetup_lawful : twoSetup.jwt.Lawful twoSetup.handler.lib :=
  bookJwt_lawful (by decide) (by decide) (by decide)

def erinEnv : AuthEnv Unit := ⟨⟨fun _ => true, ⟨8⟩⟩, (), 1, 1⟩

/-- Client 0 is dave's and client 1 erin's. -/
def daveAndErin : Unit → ClientId → UUID × String
  | (), 0 => (⟨9⟩, "dave")
  | (), _ => (⟨8⟩, "erin")

def hiErin : List UInt8 :=
  JsonScan.ascii ("\x7b\"type\":\"message\",\"to\":\"00000000-0000-0000-0000-000000000008\"," ++
    "\"body\":\"hi\",\"id\":\"c1\"\x7d")

/-- Both register and connect, dave writes to erin, and erin asks for the history. -/
def daveWrites : List (Act Unit Unit) :=
  [.register daveEnv (Credentials.mk "dave" "secret").json,
    .register erinEnv (Credentials.mk "erin" "secret").json,
    .connect () 2 ⟨"Bearer d", ""⟩ 0, .connect () 2 ⟨"", "e"⟩ 1] ++
  List.replicate 6 (.run () 0 PeerServer.fineEnv) ++
  List.replicate 6 (.run () 1 PeerServer.fineEnv) ++
  .payload () 0 PeerServer.fineEnv hiErin :: List.replicate 5 (.run () 4 PeerServer.fineEnv) ++
  .getMessages () 3 ⟨"Bearer e", ""⟩ "00000000-0000-0000-0000-000000000009" ::
    List.replicate 3 (.run () 5 PeerServer.fineEnv)

/-- Whoever presents a token has been handed what the book has under it. -/
def holds (s : System Unit) (a : Act Unit Unit) : Bool :=
  a.presents.all fun p => twoTokens.all fun e =>
    e.2 ≠ spelled p.tokenStr || s.issued.any fun d => d.1 = e.1

theorem unforged_of_holds (s : System Unit) (a : Act Unit Unit) (h : holds s a = true) :
    Unforged twoSetup s a := by
  intro p hp _ now c hopen
  rw [holds, Option.mem_def.mp hp, Option.all_some] at h
  obtain ⟨token, htoken, rfl⟩ := parseToken_ok hopen
  have hentry := List.all_eq_true.mp h _ (bookJwt_parses htoken).1
  simp only [ne_eq, not_true_eq_false, decide_false, Bool.false_or] at hentry
  obtain ⟨d, hd, hsame⟩ := List.any_eq_true.mp hentry
  exact ⟨d, hd, of_decide_eq_true hsame⟩

/-- Erin's queue holds dave's message, and she has been answered with it. -/
def erinRead (s : System Unit) : Bool :=
  (s.hub ()).log.any (fun e => e.1 = 1 && e.2.carries ⟨20⟩) &&
    (s.tasks ()).any (fun t => match t with
      | .request callerID (.answered rows) =>
          callerID = ⟨8⟩ && rows.any fun r => r.message.id = ⟨20⟩
      | _ => false) &&
    s.issued = twoTokens

/-- Dave writes to erin, who reads it. -/
theorem dave_writes : ∃ s, Reach (step twoSetup daveAndErin) (Unforged twoSetup)
    (start threeUsers daveAndErin) s ∧ erinRead s = true :=
  exists_reach_of_replay unforged_of_holds _ daveWrites erinRead (by decide +kernel)

/-! ## Who speaks -/

section Speaking

variable [DecidableEq ι]

/-- **WHO GETS PAST THE MIDDLEWARE**: exactly whoever presents a token that opens to the
    claims of one that was handed out, as the stored user it was handed out to.  A token
    that was handed out opens so until it expires, however it is spelled. -/
theorem session_iff (hjwt : su.jwt.Lawful su.handler.lib)
    (hr : Reach (step su who) (Unforged su) (start db₀ who) s) (p : Presented)
    (hp : SignedToken.Unforged su.scheme su.handler.jwtSecret s.issued p.tokenStr)
    (now : Nat) (id : UUID) (name : String) :
    (jwtAuth su.jwt su.handler.jwtSecret now p = .ok (id, name) ↔
      p.tokenStr ≠ "" ∧ ∃ e ∈ s.issued,
        parseToken su.jwt now p.tokenStr su.handler.jwtSecret = some e.1 ∧
          now < e.1.expiresAt ∧ e.1.userID = id ∧ e.1.username = name) ∧
    (∀ e ∈ s.issued, su.jwt.content p.tokenStr = su.jwt.content e.2 →
      (jwtAuth su.jwt su.handler.jwtSecret now p = .ok (id, name) ↔
        now < e.1.expiresAt ∧ e.1.userID = id ∧ e.1.username = name)) ∧
    (jwtAuth su.jwt su.handler.jwtSecret now p = .ok (id, name) → Named s.db id name) := by
  have h := sound_reach hjwt hr
  refine ⟨h.jwtAuth_iff hjwt hp, fun e he hcontent => h.handedOut_iff hjwt he hcontent, ?_⟩
  intro hok
  obtain ⟨-, e, he, -, -, rfl, rfl⟩ := (h.jwtAuth_iff hjwt hp).mp hok
  exact h.named e he

/-- Dave's token opens for another week, in every spelling. -/
theorem session_dave : ∃ s, Reach (step twoSetup daveAndErin) (Unforged twoSetup)
    (start threeUsers daveAndErin) s ∧
      jwtAuth twoSetup.jwt twoSetup.handler.jwtSecret 604800 ⟨"", "d\n"⟩ = .ok (⟨9⟩, "dave") ∧
      jwtAuth twoSetup.jwt twoSetup.handler.jwtSecret 604801 ⟨"", "d\n"⟩ ≠ .ok (⟨9⟩, "dave") ∧
      Named s.db ⟨9⟩ "dave" := by
  obtain ⟨s, hs, hread⟩ := dave_writes
  have hissued : s.issued = twoTokens := by
    simp only [erinRead, Bool.and_eq_true, decide_eq_true_eq] at hread
    exact hread.2
  have hdave : (⟨⟨9⟩, "dave", 604801, 1⟩, "d") ∈ s.issued := by
    rw [hissued]
    exact List.mem_cons_self
  have hcontent : twoSetup.jwt.content (Presented.tokenStr ⟨"", "d\n"⟩)
      = twoSetup.jwt.content "d" := by decide
  have hheld : SignedToken.Unforged twoSetup.scheme twoSetup.handler.jwtSecret s.issued
      (Presented.tokenStr ⟨"", "d\n"⟩) :=
    unforged_signed (Jwt.scheme_lawful twoSetup_lawful)
      (sound_reach twoSetup_lawful hs).signed hdave hcontent
  have hiff := fun now => session_iff twoSetup_lawful hs ⟨"", "d\n"⟩ hheld now ⟨9⟩ "dave"
  have hpasses := ((hiff 604800).2.1 _ hdave hcontent).mpr ⟨by decide, rfl, rfl⟩
  refine ⟨s, hs, hpasses, ?_, (hiff 604800).2.2 hpasses⟩
  intro hlate
  exact absurd (((hiff 604801).2.1 _ hdave hcontent).mp hlate).1 (by decide)

/-- **EVERY FRAME IS ATTRIBUTED**: whatever was ever enqueued, published or handed to a
    subscription tells the id and the name of a stored user, and the message it shows is
    stored under that id.  A relayed copy tells them under `from` and `from_name`, whatever
    else it says. -/
theorem frames_attributed (hjwt : su.jwt.Lawful su.handler.lib)
    (hr : Reach (step su who) (Unforged su) (start db₀ who) s) (i : ι) :
    (∀ e ∈ (s.hub i).log, Attributed su.fmt s.db e.2) ∧
      (∀ k, ∀ f ∈ (s.pubsub k).inbox, Attributed su.fmt s.db f) ∧
      ∀ e ∈ s.published, Attributed su.fmt s.db e.2 := by
  have hairs := (sound_reach hjwt hr).airs i
  exact ⟨fun e he => (hairs.log e he).attributed, fun k f hf => (hairs.heard k f hf).attributed,
    fun e he => (hairs.published e he).attributed⟩

/-- What erin reads is dave's. -/
theorem frames_attributed_dave : ∃ s, Reach (step twoSetup daveAndErin) (Unforged twoSetup)
    (start threeUsers daveAndErin) s ∧ erinRead s = true ∧
      (∀ e ∈ (s.hub ()).log, Attributed plainFormats s.db e.2) ∧
      (∀ k, ∀ f ∈ (s.pubsub k).inbox, Attributed plainFormats s.db f) ∧
      ∀ e ∈ s.published, Attributed plainFormats s.db e.2 := by
  obtain ⟨s, hs, hread⟩ := dave_writes
  exact ⟨s, hs, hread, frames_attributed twoSetup_lawful hs ()⟩

/-- **EVERY MESSAGE HAS AN AUTHOR WHO WAS LET IN**: a row of `messages` or `group_messages`
    that is new was stored for a user a token had been handed out to. -/
theorem stored_by_users (hjwt : su.jwt.Lawful su.handler.lib)
    (hr : Reach (step su who) (Unforged su) (start db₀ who) s) :
    (∀ m ∈ s.db.messages.rows, m.id ∈ db₀.messages.keys ∨
      ∃ name, Speaks s.issued m.senderID name ∧ Named s.db m.senderID name) ∧
    ∀ m ∈ s.db.groupMessages.rows, m ∈ db₀.groupMessages.rows ∨
      ∃ name, Speaks s.issued m.senderID name ∧ Named s.db m.senderID name := by
  have h := sound_reach hjwt hr
  have hnamed : ∀ id, (∃ name, Speaks s.issued id name) →
      ∃ name, Speaks s.issued id name ∧ Named s.db id name := by
    rintro id ⟨name, e, he, rfl, rfl⟩
    exact ⟨e.1.username, ⟨e, he, rfl, rfl⟩, h.named e he⟩
  exact ⟨fun m hm => (h.messages m hm).imp_right (hnamed m.senderID),
    fun m hm => (h.groupMessages m hm).imp_right (hnamed m.senderID)⟩

/-- Every row of that run is stored under the name of its author. -/
theorem stored_by_dave : ∃ s, Reach (step twoSetup daveAndErin) (Unforged twoSetup)
    (start threeUsers daveAndErin) s ∧ erinRead s = true ∧
      (∀ m ∈ s.db.messages.rows, m.id ∈ threeUsers.messages.keys ∨
        ∃ name, Speaks s.issued m.senderID name ∧ Named s.db m.senderID name) ∧
      ∀ m ∈ s.db.groupMessages.rows, m ∈ threeUsers.groupMessages.rows ∨
        ∃ name, Speaks s.issued m.senderID name ∧ Named s.db m.senderID name := by
  obtain ⟨s, hs, hread⟩ := dave_writes
  exact ⟨s, hs, hread, stored_by_users twoSetup_lawful hs⟩

end Speaking

/-! ## Who reads -/

/-- A direct message is of a chat of two, its sender and somebody else, and `u` is one of
    them. -/
def Between (db : Db) (u : UUID) : Frame → Prop
  | .message _ fromID _ messageID _ => ∃ m ∈ db.messages.rows, m.id = messageID ∧
      m.senderID = fromID ∧ ∃ other, other ≠ fromID ∧
        (∀ v, db.Member m.chatID v ↔ v = fromID ∨ v = other) ∧ (u = fromID ∨ u = other)
  | _ => True

/-- A frame that tells the truth is between the two of its chat. -/
theorem between_of_told {fmt : Formats} {db : Db} {u : UUID} {f : Frame} (hchats : ChatRows db)
    (h : Told fmt ever db u f) : Between db u f := by
  cases f with
  | message sender fromID body messageID timestamp =>
      obtain ⟨⟨-, m, hm, hid, hsender, -, -⟩, ⟨m', hm', hid', hmember⟩, -⟩ := h
      have hsame : m' = m := eq_of_key hm' hm (hid'.trans hid.symm)
      rw [hsame] at hmember
      refine ⟨m, hm, hid, hsender, ?_⟩
      obtain ⟨a, b, hab, hpair⟩ := hchats.pairs m.chatID (db.message_chat m hm)
      rw [← hsender]
      -- the sender is one of the two
      rcases (hpair m.senderID).mp (hchats.senders m hm) with ha | hb
      · rw [ha]
        exact ⟨b, Ne.symm hab, hpair, (hpair u).mp hmember⟩
      · rw [hb]
        exact ⟨a, hab, fun v => (hpair v).trans Or.comm, ((hpair u).mp hmember).symm⟩
  | _ => trivial

section Reading

variable [DecidableEq ι]

/-- **NOBODY ELSE READS A DIRECT MESSAGE**: live, over Redis, from the backlog or in the
    answer to a `GET /messages`, it reaches its sender and its receiver. -/
theorem direct_messages_confided (hjwt : su.jwt.Lawful su.handler.lib) (hchats : ChatRows db₀)
    (hr : Reach (step su who) (Unforged su) (start db₀ who) s) (i : ι) :
    (∀ e ∈ (s.hub i).log, Between s.db ((s.hub i).userOf e.1) e.2) ∧
      (∀ k, ∀ f ∈ (s.pubsub k).inbox, Between s.db (s.pubsub k).userID f) ∧
      ∀ callerID rows, .request callerID (.answered rows) ∈ s.tasks i →
        ∀ row ∈ rows, Between s.db callerID (PeerServer.drainFrame row) := by
  have h := sound_reach hjwt hr
  have hrows := h.chats hchats
  refine ⟨fun e he => between_of_told hrows ((h.airs i).log e he),
    fun k f hf => between_of_told hrows ((h.airs i).heard k f hf), ?_⟩
  intro callerID rows ht row hrow
  obtain ⟨-, hanswered⟩ := h.tasks i _ ht
  exact between_of_told hrows (hanswered row hrow)

theorem threeUsers_chats : ChatRows threeUsers where
  pairs _ hc := by cases hc
  senders _ hm := by cases hm

/-- Every direct message of that run is between its two. -/
theorem direct_messages_confided_dave :
    ∃ s, Reach (step twoSetup daveAndErin) (Unforged twoSetup)
      (start threeUsers daveAndErin) s ∧ erinRead s = true ∧
        (∀ e ∈ (s.hub ()).log, Between s.db ((s.hub ()).userOf e.1) e.2) ∧
        (∀ k, ∀ f ∈ (s.pubsub k).inbox, Between s.db (s.pubsub k).userID f) ∧
        ∀ callerID rows, .request callerID (.answered rows) ∈ s.tasks () →
          ∀ row ∈ rows, Between s.db callerID (PeerServer.drainFrame row) := by
  obtain ⟨s, hs, hread⟩ := dave_writes
  exact ⟨s, hs, hread, direct_messages_confided twoSetup_lawful threeUsers_chats hs ()⟩

end Reading

-- ── Dave makes a group with erin in it, and writes to it ──────────────────────

def makeGroup : List UInt8 :=
  JsonScan.ascii "\x7b\"type\":\"create_group\",\"name\":\"two\"\x7d"

def addErin : List UInt8 :=
  JsonScan.ascii ("\x7b\"type\":\"add_member\"," ++
    "\"group_id\":\"00000000-0000-0000-0000-000000000007\"," ++
    "\"user_id\":\"00000000-0000-0000-0000-000000000008\"\x7d")

def groupEnv : Env := Env.fine ⟨7⟩ ⟨20⟩ 1

def hiBoth : List UInt8 :=
  JsonScan.ascii ("\x7b\"type\":\"group_message\"," ++
    "\"group_id\":\"00000000-0000-0000-0000-000000000007\",\"body\":\"hi\"\x7d")

def daveGathers : List (Act Unit Unit) :=
  daveWrites.take 16 ++
  .payload () 0 groupEnv makeGroup :: List.replicate 2 (.run () 4 groupEnv) ++
  .payload () 0 groupEnv addErin :: List.replicate 3 (.run () 5 groupEnv) ++
  .payload () 0 groupEnv hiBoth :: List.replicate 8 (.run () 6 groupEnv)

/-- Dave and erin, in the one group. -/
def theTwo (g u : UUID) : Prop := g = ⟨7⟩ ∧ (u = ⟨9⟩ ∨ u = ⟨8⟩)

instance (g u : UUID) : Decidable (theTwo g u) := inferInstanceAs (Decidable (_ ∧ _))

instance (s : System Unit) : Decidable (Within theTwo s) :=
  decidable_of_iff (∀ k ∈ s.db.groupMembers.keys, theTwo k.1 k.2)
    ⟨fun h g u hin => h (g, u) hin, fun h k hk => h k.1 k.2 hk⟩

def holdsWithin (s : System Unit) (a : Act Unit Unit) : Bool := holds s a && Within theTwo s

theorem guarded_of_holdsWithin (s : System Unit) (a : Act Unit Unit)
    (h : holdsWithin s a = true) : Unforged twoSetup s a ∧ Within theTwo s := by
  rw [holdsWithin, Bool.and_eq_true] at h
  exact ⟨unforged_of_holds s a h.1, of_decide_eq_true h.2⟩

/-- Erin's queue holds the group message. -/
def erinHears (s : System Unit) : Bool :=
  Within theTwo s && (s.hub ()).log.any fun e => match e with
    | (1, .groupMessage groupID sender fromID body messageID timestamp) =>
        (groupID, sender, fromID, body, messageID, timestamp) = (⟨7⟩, "dave", ⟨9⟩, "hi", ⟨20⟩, 1)
    | _ => false

/-- Dave founds a group, adds erin and writes to it. -/
theorem dave_gathers : ∃ s, Reach (step twoSetup daveAndErin)
    (fun s a => Unforged twoSetup s a ∧ Within theTwo s) (start threeUsers daveAndErin) s ∧
      erinHears s = true :=
  exists_reach_of_replay guarded_of_holdsWithin _ daveGathers erinHears (by decide +kernel)

/-- **NOBODY OUTSIDE READS A GROUP MESSAGE**: whom it is enqueued for has been in its group,
    in one of the states the run has passed through. -/
theorem group_messages_confided [DecidableEq ι] (hjwt : su.jwt.Lawful su.handler.lib)
    (hr : Reach (step su who) (fun s a => Unforged su s a ∧ Within ever s) (start db₀ who) s)
    (hs : Within ever s) (i : ι) (c : ClientId) (groupID : UUID) (sender : String)
    (fromID : UUID) (body : String) (messageID : UUID) (timestamp : Nat)
    (hf : (c, .groupMessage groupID sender fromID body messageID timestamp) ∈ (s.hub i).log) :
    ever groupID ((s.hub i).userOf c) :=
  (((sound_run hjwt hr hs).airs i).log _ hf).grouped

/-- Erin hears the group message as one of its two. -/
theorem group_messages_confided_dave : ∃ s, Reach (step twoSetup daveAndErin)
    (fun s a => Unforged twoSetup s a ∧ Within theTwo s) (start threeUsers daveAndErin) s ∧
      (1, .groupMessage ⟨7⟩ "dave" ⟨9⟩ "hi" ⟨20⟩ 1) ∈ (s.hub ()).log ∧
      theTwo ⟨7⟩ ((s.hub ()).userOf 1) := by
  obtain ⟨s, hs, hears⟩ := dave_gathers
  rw [erinHears, Bool.and_eq_true] at hears
  obtain ⟨hwithin, hany⟩ := hears
  obtain ⟨e, he, hframe⟩ := List.any_eq_true.mp hany
  have hlog : (1, .groupMessage ⟨7⟩ "dave" ⟨9⟩ "hi" ⟨20⟩ 1) ∈ (s.hub ()).log := by
    split at hframe
    · cases of_decide_eq_true hframe
      exact he
    · cases hframe
  exact ⟨s, hs, hlog, group_messages_confided twoSetup_lawful hs (of_decide_eq_true hwithin)
    () 1 ⟨7⟩ "dave" ⟨9⟩ "hi" ⟨20⟩ 1 hlog⟩

end PeerSystem
