import PeerChat.TransitionProofs
import PeerChat.HandlerProofs

/-! # Conversations between two users

    Sequential traffic of `HandleDM` calls and `GET /messages` requests.  The
    chat a message goes to, the users it is pending for and the histories it
    shows in are all decided by one self-join of `chat_members`, which is right
    as long as every chat has two members and no pair has two chats.

    The self-join matches one membership row with itself: asked for a user and
    that same user it returns any chat of the user. -/

namespace PeerIsolation

open PeerEnv KeyedTable PeerHub PeerStore PeerFrame PeerWorld PeerHandler Transition

inductive Act where
  | dm (env : Env) (senderID : UUID) (senderName : String) (raw : List UInt8)
  | history (env : Env) (myID partnerID : UUID)

def step (fmt : Formats) (w : World) : Act → Option World
  | .dm env senderID senderName raw => some (handleDM fmt w env senderID senderName raw).1
  | .history env myID partnerID => some (selectHistory w env myID partnerID).1

/-- The message was accepted from one of the two and addressed to the other. -/
def Between (w : World) (a b : UUID) (m : Message) : Prop :=
  ∃ receiver, (m.id, receiver) ∈ w.addressed ∧
    ((m.senderID = a ∧ receiver = b) ∨ (m.senderID = b ∧ receiver = a))

/-- **ISOLATION OF ONE CONVERSATION**: a chat found for `a` and `b` has exactly
    these members, and the history `a` is shown with `b` is exactly the stored
    messages between the two. -/
structure Isolated (w : World) (a b : UUID) : Prop where
  members : ∀ env db c, w.db.findOrCreateChat env a b = (db, .ok c) →
    ∀ u, db.Member c u ↔ u = a ∨ u = b
  shown : ∀ env w' rows, selectHistory w env a b = (w', .ok rows) →
    ∀ m, (∃ p ∈ rows, p.message = m) ↔ m ∈ w'.db.messages.rows ∧ Between w a b m

/-- No message is pending for, or shown to, anybody but its sender and the user
    it was addressed to. -/
def NoThirdParty (w : World) : Prop :=
  ∀ m ∈ w.db.messages.rows, ∀ receiver, (m.id, receiver) ∈ w.addressed →
    ∀ u, u ≠ m.senderID → u ≠ receiver →
      (∀ p ∈ w.db.pendingRows u, p.message ≠ m) ∧
      ∀ env b w' rows, selectHistory w env u b = (w', .ok rows) →
        ∀ p ∈ rows, p.message ≠ m

/-- `u` is in no chat. -/
def NoChat (db : Db) (u : UUID) : Prop := ∀ r ∈ db.chatMembers.rows, r.userID ≠ u

instance (db : Db) (u : UUID) : Decidable (NoChat db u) :=
  inferInstanceAs (Decidable (∀ r ∈ _, _))

/-- The condition on the traffic: whoever addresses itself has no chat yet, or its
    `SELECT` or its `INSERT` fails. -/
def NoSelfAddressed (fmt : Formats) (w : World) : Act → Prop
  | .dm env senderID senderName raw =>
      ∀ call ∈ (parseDM fmt senderID senderName raw).toOption,
        env.ok .findChat = true ∧ env.ok .insertMessage = true ∧ NulFree call.body →
          call.senderID ≠ call.receiverID ∨ NoChat w.db call.senderID
  | .history _ _ _ => True

instance (fmt : Formats) (w : World) (a : Act) : Decidable (NoSelfAddressed fmt w a) :=
  match a with
  | .dm _ _ _ _ => inferInstanceAs (Decidable (∀ call ∈ Except.toOption _, _))
  | .history _ _ _ => isTrue trivial

/-! ## Chats of two -/

/-- Every chat somebody is in has two members, who differ, and no two users
    share two chats. -/
structure PairChats (db : Db) : Prop where
  two : ∀ c u, db.Member c u → ∃ v, v ≠ u ∧ ∀ x, db.Member c x ↔ x = u ∨ x = v
  one : ∀ a b c c', a ≠ b → db.Member c a → db.Member c b → db.Member c' a →
    db.Member c' b → c = c'

/-- The members of the chat two different users share are these two. -/
theorem PairChats.members {db : Db} (h : PairChats db) {a b c : UUID} (hab : a ≠ b)
    (ha : db.Member c a) (hb : db.Member c b) (u : UUID) :
    db.Member c u ↔ u = a ∨ u = b := by
  obtain ⟨v, -, hv⟩ := h.two c a ha
  have hbv : b = v := by
    rcases (hv b).mp hb with heq | heq
    · exact absurd heq.symm hab
    · exact heq
  rw [hv, hbv]

/-- A chat created for two users who shared none keeps the chats paired. -/
theorem pairChats_of_created {db db' : Db} {c a b : UUID} (h : PairChats db)
    (hnone : ∀ c, ¬ (db.Member c a ∧ db.Member c b)) (hc : ChatCreated db db' c a b) :
    PairChats db' := by
  have hnew : ∀ u, db'.Member c u ↔ u = a ∨ u = b := by
    intro u
    rw [hc.members]
    constructor
    · rintro (hold | ⟨-, hu⟩)
      · exact absurd hold (hc.fresh u)
      · exact hu
    · intro hu
      exact Or.inr ⟨rfl, hu⟩
  have hold : ∀ d, d ≠ c → ∀ u, db'.Member d u ↔ db.Member d u := by
    intro d hd u
    rw [hc.members]
    exact ⟨fun hm => hm.resolve_right (fun hr => hd hr.1), Or.inl⟩
  -- two users that share the new chat shared none before
  have hapart : ∀ x y d, x ≠ y → db'.Member c x → db'.Member c y → db'.Member d x →
      db'.Member d y → d = c := by
    intro x y d hxy hx hy hdx hdy
    by_contra hd
    rw [hold d hd] at hdx hdy
    rcases (hnew x).mp hx with rfl | rfl <;> rcases (hnew y).mp hy with rfl | rfl
    · exact hxy rfl
    · exact hnone d ⟨hdx, hdy⟩
    · exact hnone d ⟨hdy, hdx⟩
    · exact hxy rfl
  refine ⟨?_, ?_⟩
  · intro d u hu
    by_cases hd : d = c
    · rw [hd] at hu ⊢
      rcases (hnew u).mp hu with rfl | rfl
      · exact ⟨b, Ne.symm hc.distinct, hnew⟩
      · exact ⟨a, hc.distinct, fun x => (hnew x).trans or_comm⟩
    · obtain ⟨v, hv, hall⟩ := h.two d u ((hold d hd u).mp hu)
      exact ⟨v, hv, fun x => (hold d hd x).trans (hall x)⟩
  · intro x y d d' hxy hdx hdy hdx' hdy'
    by_cases hd : d = c
    · rw [hd] at hdx hdy ⊢
      exact (hapart x y d' hxy hdx hdy hdx' hdy').symm
    · by_cases hd' : d' = c
      · rw [hd'] at hdx' hdy' ⊢
        exact hapart x y d hxy hdx' hdy' hdx hdy
      · exact h.one x y d d' hxy ((hold d hd x).mp hdx) ((hold d hd y).mp hdy)
          ((hold d' hd' x).mp hdx') ((hold d' hd' y).mp hdy')

/-! ## The traffic invariant -/

/-- Every stored message is in the chat of its sender and the other user it was
    addressed to, and the addressee of a message is recorded once. -/
structure Sorted (w : World) : Prop where
  chats : PairChats w.db
  stored : ∀ m ∈ w.db.messages.rows, ∃ receiver, (m.id, receiver) ∈ w.addressed ∧
    receiver ≠ m.senderID ∧ w.db.Member m.chatID m.senderID ∧
    w.db.Member m.chatID receiver
  known : ∀ e ∈ w.addressed, e.1 ∈ w.db.messages.keys
  once : ∀ id u v, (id, u) ∈ w.addressed → (id, v) ∈ w.addressed → u = v

theorem Sorted.receiver {w : World} (h : Sorted w) {m : Message} {receiver : UUID}
    (hm : m ∈ w.db.messages.rows) (hr : (m.id, receiver) ∈ w.addressed) :
    receiver ≠ m.senderID ∧ w.db.Member m.chatID m.senderID ∧
      w.db.Member m.chatID receiver := by
  obtain ⟨receiver', hr', hne, hs, hm'⟩ := h.stored m hm
  have heq := h.once m.id receiver receiver' hr hr'
  rw [heq]
  exact ⟨hne, hs, hm'⟩

/-- Creating a chat for two users who share none. -/
theorem sorted_of_created {w : World} {db : Db} {c a b : UUID} (h : Sorted w)
    (hnone : ∀ c, ¬ (w.db.Member c a ∧ w.db.Member c b))
    (hc : ChatCreated w.db db c a b) : Sorted { w with db := db } := by
  have hmember : ∀ d u, w.db.Member d u → db.Member d u :=
    fun d u hu => (hc.members d u).mpr (Or.inl hu)
  refine ⟨pairChats_of_created h.chats hnone hc, ?_, ?_, h.once⟩
  · intro m hm
    have hm' : m ∈ w.db.messages.rows := by
      rw [← hc.messages]
      exact hm
    obtain ⟨receiver, hr, hne, hs, hr'⟩ := h.stored m hm'
    exact ⟨receiver, hr, hne, hmember _ _ hs, hmember _ _ hr'⟩
  · intro e he
    show e.1 ∈ db.messages.keys
    rw [hc.messages]
    exact h.known e he

/-- `FindOrCreateChat` may leave the tables alone or create a chat. -/
theorem sorted_of_found {w : World} {db : Db} {c a b : UUID} (h : Sorted w)
    (hdb : db = w.db ∨ ((∀ c, ¬ (w.db.Member c a ∧ w.db.Member c b)) ∧
      ChatCreated w.db db c a b)) : Sorted { w with db := db } := by
  rcases hdb with rfl | ⟨hnone, hc⟩
  · exact h
  · exact sorted_of_created h hnone hc

/-- Storing a message addressed to another member of its chat. -/
theorem sorted_of_stored {w : World} {db' : Db} {m : Message} (receiver : UUID)
    (h : Sorted w) (hst : MessageStored w.db db' m) (hne : receiver ≠ m.senderID)
    (hs : w.db.Member m.chatID m.senderID) (hr : w.db.Member m.chatID receiver) :
    Sorted { w with db := db', addressed := w.addressed ++ [(m.id, receiver)] } := by
  have hmember : ∀ d u, db'.Member d u ↔ w.db.Member d u := by
    intro d u
    simp only [Db.Member]
    rw [hst.chatMembers]
  have hkeys : db'.messages.keys = w.db.messages.keys ++ [m.id] := by
    rw [Table.keys]
    rw [hst.messages, List.map_append]
    rfl
  have hfresh : ∀ u, (m.id, u) ∉ w.addressed := fun u hu => hst.fresh (h.known _ hu)
  refine ⟨⟨?_, ?_⟩, ?_, ?_, ?_⟩
  · intro c u hu
    obtain ⟨v, hv, hall⟩ := h.chats.two c u ((hmember c u).mp hu)
    exact ⟨v, hv, fun x => (hmember c x).trans (hall x)⟩
  · intro a b c c' hab hca hcb hca' hcb'
    exact h.chats.one a b c c' hab ((hmember _ _).mp hca) ((hmember _ _).mp hcb)
      ((hmember _ _).mp hca') ((hmember _ _).mp hcb')
  · intro m' hm'
    rw [hst.messages] at hm'
    rcases List.mem_append.mp hm' with hold | hnew
    · obtain ⟨r', hr', hne', hs', hmem'⟩ := h.stored m' hold
      exact ⟨r', List.mem_append_left _ hr', hne', (hmember _ _).mpr hs',
        (hmember _ _).mpr hmem'⟩
    · rw [List.mem_singleton.mp hnew]
      exact ⟨receiver, List.mem_concat_self, hne,
        (hmember _ _).mpr hs, (hmember _ _).mpr hr⟩
  · intro e he
    show e.1 ∈ db'.messages.keys
    rw [hkeys]
    rcases List.mem_append.mp he with hold | hnew
    · exact List.mem_append_left _ (h.known e hold)
    · rw [List.mem_singleton.mp hnew]
      exact List.mem_concat_self
  · intro id u v hu hv
    rcases List.mem_append.mp hu with hu | hu <;>
      rcases List.mem_append.mp hv with hv | hv
    · exact h.once id u v hu hv
    · rw [List.mem_singleton, Prod.mk.injEq] at hv
      rw [hv.1] at hu
      exact absurd hu (hfresh u)
    · rw [List.mem_singleton, Prod.mk.injEq] at hu
      rw [hu.1] at hv
      exact absurd hv (hfresh v)
    · rw [List.mem_singleton, Prod.mk.injEq] at hu hv
      rw [hu.2, hv.2]

/-- A status update moves no message. -/
theorem sorted_of_setStatus {w : World} (h : Sorted w) (id : UUID) (st : Status) :
    Sorted { w with db := w.db.setStatus id st } := by
  refine ⟨⟨h.chats.two, h.chats.one⟩, ?_, ?_, h.once⟩
  · intro m hm
    obtain ⟨m₀, hm₀, heq⟩ := mem_setStatus.mp hm
    obtain ⟨receiver, hr, hne, hs, hr'⟩ := h.stored m₀ hm₀
    have hsame : m.id = m₀.id ∧ m.senderID = m₀.senderID ∧ m.chatID = m₀.chatID := by
      rw [heq]
      split <;> exact ⟨rfl, rfl, rfl⟩
    refine ⟨receiver, ?_, ?_, ?_, ?_⟩
    · rw [hsame.1]; exact hr
    · rw [hsame.2.1]; exact hne
    · rw [hsame.2.1, hsame.2.2]; exact hs
    · rw [hsame.2.2]; exact hr'
  · intro e he
    show e.1 ∈ (w.db.setStatus id st).messages.keys
    rw [setStatus_keys]
    exact h.known e he

/-- Only the tables and the addressees matter. -/
theorem Sorted.congr {w w' : World} (h : Sorted w) (hdb : w'.db = w.db)
    (ha : w'.addressed = w.addressed) : Sorted w' := by
  refine ⟨?_, ?_, ?_, ?_⟩
  · rw [hdb]; exact h.chats
  · rw [hdb, ha]; exact h.stored
  · rw [hdb, ha]; exact h.known
  · rw [ha]; exact h.once

/-- In a sorted world a chat of both is a chat of two different users, or both
    are one user who is in a chat. -/
theorem sorted_runDM {w : World} {env : Env} {call : DmCall} (h : Sorted w)
    (hne : env.ok .findChat = true ∧ env.ok .insertMessage = true ∧ NulFree call.body →
      call.senderID ≠ call.receiverID ∨ NoChat w.db call.senderID) :
    Sorted (runDM w env call).1 := by
  rw [runDM]
  rcases storeDM_cases w env call with ⟨e, db, hs, hdb⟩ |
    ⟨db, stored, db', hs, hdb, hsm, hrm, hsender, -, hst⟩
  · rw [hs]
    exact sorted_of_found h hdb
  · rw [hs]
    have hdistinct : call.senderID ≠ call.receiverID := by
      rcases hne (storeDM_stmts hs) with hne | hno
      · exact hne
      · rcases hdb with rfl | ⟨-, hc⟩
        · exact absurd rfl (hno _ hsm)
        · exact hc.distinct
    have hsorted := sorted_of_stored (w := { w with db := db }) call.receiverID
      (sorted_of_found h hdb) hst (by rw [hsender]; exact hdistinct.symm)
      (by rw [hsender]; exact hsm) hrm
    obtain ⟨hdb', haddr⟩ := deliverDM_db { w with
      db := db', addressed := w.addressed ++ [(stored.id, call.receiverID)] }
      env call stored
    rcases hdb' with hdb' | hdb'
    · exact hsorted.congr hdb' haddr
    · exact (sorted_of_setStatus hsorted stored.id .delivered).congr hdb' haddr

theorem selectHistory_fst (w : World) (env : Env) (a b : UUID) :
    (selectHistory w env a b).1 = { w with db := (w.db.findOrCreateChat env a b).1 } := by
  rw [selectHistory]
  cases w.db.findOrCreateChat env a b with
  | mk db r =>
      cases r with
      | error e => rfl
      | ok c =>
          simp only
          split <;> rfl

theorem sorted_step {fmt : Formats} {w w' : World} {a : Act} (h : Sorted w)
    (hG : NoSelfAddressed fmt w a) (hs : step fmt w a = some w') : Sorted w' := by
  cases a with
  | dm env senderID senderName raw =>
      rw [← Option.some.inj hs]
      rw [handleDM]
      cases hp : parseDM fmt senderID senderName raw with
      | error e => exact h
      | ok call =>
          exact sorted_runDM h (hG call (by rw [hp]; rfl))
  | history env a b =>
      rw [← Option.some.inj hs, selectHistory_fst]
      rcases findOrCreateChat_cases w.db env a b with ⟨e, hf⟩ | ⟨c, hf, -, -⟩ |
        ⟨db, hf, hnone, hc⟩
      · rw [hf]
        exact h
      · rw [hf]
        exact h
      · rw [hf]
        exact sorted_of_created h hnone hc

/-! ## Isolation -/

/-- What `selectHistory` returns when it succeeds: the rows of the chat found. -/
theorem selectHistory_ok {w w' : World} {env : Env} {a b : UUID}
    {rows : List PendingMessage} (h : selectHistory w env a b = (w', .ok rows)) :
    ∃ db c, w.db.findOrCreateChat env a b = (db, .ok c) ∧ w' = { w with db := db } ∧
      rows = db.historyRows c := by
  rw [selectHistory] at h
  cases hf : w.db.findOrCreateChat env a b with
  | mk db r =>
      rw [hf] at h
      cases r with
      | error e => cases congrArg Prod.snd h
      | ok c =>
          simp only at h
          split at h
          · have hrows : _ = Except.ok rows := congrArg Prod.snd h
            exact ⟨db, c, rfl, (congrArg Prod.fst h).symm, (Except.ok.inj hrows).symm⟩
          · cases congrArg Prod.snd h

/-- A found or created chat has both users, and finding it moved no message. -/
theorem findOrCreateChat_ok {db db' : Db} {env : Env} {a b c : UUID}
    (h : db.findOrCreateChat env a b = (db', .ok c)) :
    db'.Member c a ∧ db'.Member c b ∧ db'.messages = db.messages ∧
      (db' = db ∨ a ≠ b ∧ (∀ d, ¬ (db.Member d a ∧ db.Member d b)) ∧
        ChatCreated db db' c a b) := by
  rcases findOrCreateChat_cases db env a b with ⟨e, hf⟩ | ⟨d, hf, ha, hb⟩ |
    ⟨d, hf, hnone, hc⟩
  · rw [hf] at h
    cases congrArg Prod.snd h
  · rw [hf] at h
    have hdb : db = db' := congrArg Prod.fst h
    have hcd : d = c := Except.ok.inj (congrArg Prod.snd h)
    rw [← hdb, ← hcd]
    exact ⟨ha, hb, rfl, Or.inl rfl⟩
  · rw [hf] at h
    have hdb : d = db' := congrArg Prod.fst h
    have hcd : env.newChat = c := Except.ok.inj (congrArg Prod.snd h)
    rw [← hdb, ← hcd]
    exact ⟨(hc.members _ _).mpr (Or.inr ⟨rfl, Or.inl rfl⟩),
      (hc.members _ _).mpr (Or.inr ⟨rfl, Or.inr rfl⟩), hc.messages,
      Or.inr ⟨hc.distinct, hnone, hc⟩⟩

theorem sorted_found {w : World} (h : Sorted w) {env : Env} {a b c : UUID} {db : Db}
    (hf : w.db.findOrCreateChat env a b = (db, .ok c)) : Sorted { w with db := db } := by
  obtain ⟨-, -, -, hdb⟩ := findOrCreateChat_ok hf
  rcases hdb with rfl | ⟨-, hnone, hc⟩
  · exact h
  · exact sorted_of_created h hnone hc

/-- Two different users are isolated. -/
theorem isolated_of_ne {w : World} (h : Sorted w) {a b : UUID} (hab : a ≠ b) :
    Isolated w a b := by
  have hmem : ∀ env db c, w.db.findOrCreateChat env a b = (db, .ok c) →
      ∀ u, db.Member c u ↔ u = a ∨ u = b := by
    intro env db c hf
    obtain ⟨ha, hb, -, -⟩ := findOrCreateChat_ok hf
    exact (sorted_found h hf).chats.members hab ha hb
  refine ⟨hmem, ?_⟩
  intro env w' rows hrows m
  obtain ⟨db, c, hf, rfl, rfl⟩ := selectHistory_ok hrows
  have hsorted := sorted_found h hf
  constructor
  · rintro ⟨p, hp, rfl⟩
    obtain ⟨hin, hc, -⟩ := mem_historyRows.mp hp
    refine ⟨hin, ?_⟩
    obtain ⟨receiver, hr, hne, hs, hr'⟩ := hsorted.stored p.message hin
    refine ⟨receiver, hr, ?_⟩
    rw [hc] at hs hr'
    rcases (hmem env db c hf _).mp hs with hsa | hsb <;>
      rcases (hmem env db c hf _).mp hr' with hra | hrb
    · exact absurd (hra.trans hsa.symm) hne
    · exact Or.inl ⟨hsa, hrb⟩
    · exact Or.inr ⟨hsb, hra⟩
    · exact absurd (hrb.trans hsb.symm) hne
  · rintro ⟨hin, receiver, hr, hpair⟩
    obtain ⟨-, hs, hr'⟩ := hsorted.receiver hin hr
    obtain ⟨ha, hb, -, -⟩ := findOrCreateChat_ok hf
    have hchat : m.chatID = c := by
      rcases hpair with ⟨rfl, rfl⟩ | ⟨rfl, rfl⟩
      · exact hsorted.chats.one _ _ _ _ hab hs hr' ha hb
      · exact hsorted.chats.one _ _ _ _ hab hr' hs ha hb
    exact exists_historyRow hin hchat

/-- A user with itself is isolated exactly while it is in no chat. -/
theorem isolated_self {w : World} (h : Sorted w) (a : UUID) :
    Isolated w a a ↔ NoChat w.db a := by
  constructor
  · intro hiso r hr hra
    have hmem : w.db.Member r.chatID a := by
      rw [← hra]
      exact hr
    obtain ⟨v, hva, hall⟩ := h.chats.two r.chatID a hmem
    obtain ⟨pick, hf⟩ := findOrCreateChat_of_member (Env.fine ⟨0⟩ ⟨0⟩ 0) rfl hmem hmem
    have hv := (hiso.members _ _ _ hf v).mp ((hall v).mpr (Or.inr rfl))
    exact hva (hv.elim id id)
  · intro hno
    have hfail : ∀ env db c, w.db.findOrCreateChat env a a ≠ (db, .ok c) := by
      intro env db c hf
      obtain ⟨ha, -, -, hdb⟩ := findOrCreateChat_ok hf
      rcases hdb with rfl | ⟨hne, -⟩
      · exact hno _ ha rfl
      · exact hne rfl
    refine ⟨?_, ?_⟩
    · intro env db c hf
      exact absurd hf (hfail env db c)
    · intro env w' rows hrows
      obtain ⟨db, c, hf, -⟩ := selectHistory_ok hrows
      exact absurd hf (hfail env db c)

theorem noThirdParty_of_sorted {w : World} (h : Sorted w) : NoThirdParty w := by
  intro m hm receiver hr u hus hur
  obtain ⟨hne, hs, hr'⟩ := h.receiver hm hr
  have hout : ¬ w.db.Member m.chatID u := by
    intro hu
    rcases (h.chats.members hne.symm hs hr' u).mp hu with heq | heq
    · exact hus heq
    · exact hur heq
  refine ⟨?_, ?_⟩
  · rintro p hp rfl
    exact hout (mem_pendingRows.mp hp).2.1
  · rintro env b w' rows hrows p hp rfl
    obtain ⟨db, c, hf, rfl, rfl⟩ := selectHistory_ok hrows
    obtain ⟨hin, hc, -⟩ := mem_historyRows.mp hp
    obtain ⟨hmem, -, -, -⟩ := findOrCreateChat_ok hf
    have hsorted := sorted_found h hf
    obtain ⟨-, hs', hr''⟩ := hsorted.receiver hin hr
    rw [← hc] at hmem
    rcases (hsorted.chats.members hne.symm hs' hr'' u).mp hmem with heq | heq
    · exact hus heq
    · exact hur heq

/-- A store in which nobody has chatted yet. -/
def Unused (db : Db) : Prop := db.chatMembers.rows = [] ∧ db.messages.rows = []

theorem sorted_start {db : Db} (who : ClientId → UUID × String) (hdb : Unused db) :
    Sorted (World.start db who) := by
  have hno : ∀ c u, ¬ db.Member c u := by
    intro c u hu
    rw [Db.Member] at hu
    rw [hdb.1] at hu
    cases hu
  refine ⟨⟨fun c u hu => absurd hu (hno c u), fun _ _ _ _ _ ha => absurd ha (hno _ _)⟩,
    ?_, ?_, ?_⟩
  · intro m hm
    change m ∈ db.messages.rows at hm
    rw [hdb.2] at hm
    cases hm
  · intro e he
    cases he
  · intro id u v hu
    cases hu

/-- **CONVERSATIONS ARE ISOLATED**: in every run of traffic in which whoever
    addresses itself has no chat yet, a pair is isolated exactly when it is two
    users or one without a chat, and no message gets to a third one. -/
theorem isolated_iff {fmt : Formats} {db : Db} {who : ClientId → UUID × String}
    {w : World} (hdb : Unused db)
    (h : Reach (step fmt) (NoSelfAddressed fmt) (World.start db who) w) :
    (∀ a b, Isolated w a b ↔ a ≠ b ∨ NoChat w.db a) ∧ NoThirdParty w := by
  have hs : Sorted w :=
    Reach.invariant (fun _ _ _ hs hG ht => sorted_step hs hG ht) h (sorted_start who hdb)
  refine ⟨?_, noThirdParty_of_sorted hs⟩
  intro a b
  by_cases hab : a = b
  · rw [← hab, isolated_self hs]
    simp
  · exact ⟨fun _ => Or.inl hab, fun _ => isolated_of_ne hs hab⟩

/-- A message frame for a receiver. -/
def hiTo (receiver : String) : List UInt8 :=
  JsonScan.ascii ("\x7b\"type\":\"message\",\"to\":\"" ++ receiver ++ "\",\"body\":\"hi\"\x7d")

/-- Alice writes to Bob, and then to herself: the second message is pending for
    Bob. -/
theorem self_message_leaks : ¬ ∀ w : World,
    Reach (step plainFormats) anyStep (World.start threeUsers oneUser) w →
      (∀ a b, Isolated w a b) ∧ NoThirdParty w := by
  obtain ⟨w, hw, m, hm, hr, hs, p, hp, hpm⟩ := exists_reach_of_replayGuarded
    (step plainFormats) (fun _ _ => True) (World.start threeUsers oneUser)
    [.dm (Env.fine ⟨10⟩ ⟨20⟩ 1) ⟨1⟩ "alice" (hiTo "00000000-0000-0000-0000-000000000002"),
     .dm (Env.fine ⟨11⟩ ⟨21⟩ 2) ⟨1⟩ "alice" (hiTo "00000000-0000-0000-0000-000000000001")]
    (fun w => ∃ m ∈ w.db.messages.rows, (m.id, ⟨1⟩) ∈ w.addressed ∧ m.senderID = ⟨1⟩ ∧
      ∃ p ∈ w.db.pendingRows ⟨2⟩, p.message = m) (by decide +kernel)
  intro hall
  exact ((hall w hw).2 m hm ⟨1⟩ hr ⟨2⟩ (by rw [hs]; decide) (by decide)).1 p hp hpm

/-- Alice writes to Bob and Bob answers. -/
theorem isolated_after_exchange : ∃ w : World,
    Reach (step plainFormats) (NoSelfAddressed plainFormats)
        (World.start threeUsers oneUser) w ∧
      w.addressed = [(⟨20⟩, ⟨2⟩), (⟨21⟩, ⟨1⟩)] ∧
      (∀ a b, Isolated w a b ↔ a ≠ b ∨ NoChat w.db a) ∧ NoThirdParty w := by
  obtain ⟨w, hw, haddr⟩ := exists_reach_of_replayGuarded (step plainFormats)
    (NoSelfAddressed plainFormats) (World.start threeUsers oneUser)
    [.dm (Env.fine ⟨10⟩ ⟨20⟩ 1) ⟨1⟩ "alice" (hiTo "00000000-0000-0000-0000-000000000002"),
     .dm (Env.fine ⟨11⟩ ⟨21⟩ 2) ⟨2⟩ "bob" (hiTo "00000000-0000-0000-0000-000000000001")]
    (fun w => w.addressed = [(⟨20⟩, ⟨2⟩), (⟨21⟩, ⟨1⟩)]) (by decide +kernel)
  exact ⟨w, hw, haddr, isolated_iff ⟨rfl, rfl⟩ hw⟩

end PeerIsolation
