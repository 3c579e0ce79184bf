import PeerChat.DispatchProofs

/-! # What the sender of a direct message is told

    `Dispatch` on a 'message' payload: a rate-limited one is answered with an error
    frame, a stored and delivered one with its ack.  `HandleDM` returns its other
    failures to `Dispatch`, which logs them, so the sender is told nothing; and after
    the row is stored there are two of these, a failed `Publish` and a queue that the
    message itself has filled. -/

namespace PeerReply

open PeerEnv KeyedTable JsonDecode PeerHub PeerStore PeerFrame PeerRedis PeerWorld
open PeerHandler PeerDispatch

/-- Anything but the copy of a message. -/
def isReply : Frame → Bool
  | .message .. => false
  | _ => true

/-- An error frame. -/
def isError : Frame → Bool
  | .error _ => true
  | .rateLimited => true
  | _ => false

/-- The replies enqueued for `s` between two states. -/
def replies (w w' : World) (s : UUID) : List Frame :=
  ((w'.hub.log.drop w.hub.log.length).filter fun e => w.hub.userOf e.1 = s ∧ isReply e.2).map
    Prod.snd

/-- **ONE TRUE ANSWER**: one reply, which is the ack of the row that was stored, or an
    error frame, and then no row was. -/
def AnsweredTruly (fmt : Formats) (w w' : World) (s : UUID) (senderName : String)
    (raw : List UInt8) : Prop :=
  ∃ f, replies w w' s = [f] ∧
    ((∃ call m, parseDM fmt s senderName raw = .ok call ∧
      w'.db.messages.keys = w.db.messages.keys ++ [m.id] ∧ m ∈ w'.db.messages.rows ∧
      m.senderID = s ∧ m.body = call.body ∧ f = call.ack m) ∨
    (isError f = true ∧ w'.db.messages = w.db.messages))

/-! ## When a message can be stored -/

/-- The two share a chat, or the transaction that creates one goes through. -/
def ChatAvailable (db : Db) (env : Env) (a b : UUID) : Prop :=
  env.ok .findChat = true ∧ ((∃ c, db.Member c a ∧ db.Member c b) ∨
    (a ≠ b ∧ a ∈ db.users.keys ∧ b ∈ db.users.keys ∧ env.newChat ∉ db.chats.rows ∧
      env.ok .beginTx = true ∧ env.ok .insertChat = true ∧ env.ok .insertMembers = true ∧
      env.ok .commit = true))

/-- And so does the insert, of a text Postgres takes. -/
def Storable (db : Db) (env : Env) (a b : UUID) (body : String) : Prop :=
  ChatAvailable db env a b ∧ (env.ok .insertMessage = true ∧ NulFree body) ∧
    env.newMessage ∉ db.messages.keys

theorem insertChat_of_fresh {db : Db} {c : UUID} (h : c ∉ db.chats.rows) :
    ∃ db', db.insertChat c = .ok db' := by
  rw [Db.insertChat]
  split
  · rename_i hins
    have htaken := insert_eq_none.mp hins
    rw [chats_keys] at htaken
    exact absurd htaken h
  · exact ⟨_, rfl⟩

theorem insertChatMember_of_fresh {db : Db} {c u : UUID} (hc : c ∈ db.chats.rows)
    (hu : u ∈ db.users.keys) (h : ¬ db.Member c u) :
    ∃ db', db.insertChatMember c u = .ok db' := by
  rw [Db.insertChatMember, dif_pos ⟨hc, hu⟩]
  split
  · rename_i hins
    have htaken := insert_eq_none.mp hins
    rw [chatMembers_keys] at htaken
    exact absurd htaken h
  · exact ⟨_, rfl⟩

/-- When the transaction of `FindOrCreateChat` commits. -/
theorem createChat_isOk_iff {db : Db} {env : Env} {a b : UUID} :
    (∃ db', db.createChat env a b = .ok db') ↔
      a ≠ b ∧ a ∈ db.users.keys ∧ b ∈ db.users.keys ∧ env.newChat ∉ db.chats.rows ∧
        env.ok .beginTx = true ∧ env.ok .insertChat = true ∧ env.ok .insertMembers = true ∧
        env.ok .commit = true := by
  constructor
  · rintro ⟨db', h⟩
    have hcreated := createChat_ok h
    have hin : ∀ u, u = a ∨ u = b → u ∈ db.users.keys := by
      intro u hu
      rw [← hcreated.users]
      exact db'.member_user ⟨env.newChat, u⟩ ((hcreated.members _ _).mpr (Or.inr ⟨rfl, hu⟩))
    obtain ⟨hup, d1, d2, h1, -⟩ := createChat_transaction h
    exact ⟨hcreated.distinct, hin a (Or.inl rfl), hin b (Or.inr rfl), (insertChat_ok h1).1, hup⟩
  · rintro ⟨hab, ha, hb, hfresh, hbegin, hchat, hmembers, hcommit⟩
    obtain ⟨d1, h1⟩ := insertChat_of_fresh hfresh
    obtain ⟨-, hchats1, hm1, -, hu1⟩ := insertChat_ok h1
    have hin : env.newChat ∈ d1.chats.rows := by
      rw [hchats1]
      exact List.mem_concat_self
    have hnone : ∀ u, ¬ d1.Member env.newChat u := by
      intro u hu
      rw [Db.Member, hm1] at hu
      exact hfresh (db.member_chat _ hu)
    obtain ⟨d2, h2⟩ := insertChatMember_of_fresh hin (by rwa [hu1]) (hnone a)
    obtain ⟨-, hrows, hchats2, -, hu2⟩ := insertChatMember_ok h2
    have hin2 : env.newChat ∈ d2.chats.rows := by
      rw [hchats2]
      exact hin
    obtain ⟨d3, h3⟩ := insertChatMember_of_fresh hin2 (by rwa [hu2, hu1]) (u := b) (by
      rw [Db.Member, hrows]
      simp only [List.mem_append, List.mem_singleton, ChatMember.mk.injEq, true_and, not_or]
      exact ⟨hnone b, fun heq => hab heq.symm⟩)
    refine ⟨d3, ?_⟩
    rw [Db.createChat, guardOk_ok.mpr hbegin, guardOk_ok.mpr hchat, guardOk_ok.mpr hmembers,
      guardOk_ok.mpr hcommit, h1]
    show (d1.insertChatMember env.newChat a >>= fun tx =>
      tx.insertChatMember env.newChat b >>= fun tx => Except.ok tx) = .ok d3
    rw [h2]
    show (d2.insertChatMember env.newChat b >>= fun tx => Except.ok tx) = .ok d3
    rw [h3]
    rfl

theorem findOrCreateChat_isOk_iff {db : Db} {env : Env} {a b : UUID} :
    (∃ db' c, db.findOrCreateChat env a b = (db', .ok c)) ↔ ChatAvailable db env a b := by
  rw [Db.findOrCreateChat, ChatAvailable]
  cases hok : env.ok .findChat with
  | false =>
      have hfind : db.findChat env a b = .error .failed := by
        rw [Db.findChat, guardOk, hok]
        rfl
      rw [hfind]
      refine iff_of_false ?_ fun h => Bool.false_ne_true h.1
      rintro ⟨db', c, h⟩
      cases congrArg Prod.snd h
  | true =>
      rw [and_iff_right rfl]
      cases hpick : limitOne env.pick (db.selectChat a b) with
      | some c =>
          have hfind : db.findChat env a b = .ok c := by
            rw [Db.findChat, guardOk_ok.mpr hok, hpick]
            rfl
          rw [hfind]
          exact iff_of_true ⟨db, c, rfl⟩ (Or.inl ⟨c, findChat_ok hfind⟩)
      | none =>
          have hfind : db.findChat env a b = .error .noRows := by
            rw [Db.findChat, guardOk_ok.mpr hok, hpick]
            rfl
          have hnone : ¬ ∃ c, db.Member c a ∧ db.Member c b := by
            rintro ⟨c, hc⟩
            exact findChat_noRows hfind c hc
          rw [hfind, ← createChat_isOk_iff, or_iff_right hnone]
          cases hcreate : db.createChat env a b with
          | error e =>
              refine iff_of_false ?_ ?_
              · rintro ⟨db', c, h⟩
                cases congrArg Prod.snd h
              · rintro ⟨db', h⟩
                cases h
          | ok db' => exact iff_of_true ⟨db', _, rfl⟩ ⟨db', rfl⟩

theorem insertMessage_isOk_iff {db : Db} {env : Env} {c a : UUID} (body : String)
    (hc : c ∈ db.chats.rows) (ha : a ∈ db.users.keys) :
    (∃ p, db.insertMessage env c a body = .ok p) ↔
      (env.ok .insertMessage = true ∧ NulFree body) ∧ env.newMessage ∉ db.messages.keys := by
  constructor
  · rintro ⟨⟨db', m⟩, h⟩
    obtain ⟨rfl, hst⟩ := insertMessage_ok h
    exact ⟨insertMessage_stmt h, hst.fresh⟩
  · rintro ⟨hok, hfresh⟩
    rw [Db.insertMessage, if_pos hok, dif_pos ⟨hc, ha⟩]
    split
    · rename_i hins
      exact absurd (insert_eq_none.mp hins) hfresh
    · exact ⟨_, rfl⟩

/-- The chat and the sender are there once the chat is. -/
theorem storeDM_isOk_iff (w : World) (env : Env) (call : DmCall) :
    (∃ w' stored, storeDM w env call = (w', .ok stored)) ↔
      Storable w.db env call.senderID call.receiverID call.body := by
  rw [Storable, ← findOrCreateChat_isOk_iff, storeDM]
  cases hfind : w.db.findOrCreateChat env call.senderID call.receiverID with
  | mk db r =>
      cases r with
      | error e =>
          refine iff_of_false ?_ ?_
          · rintro ⟨w', stored, h⟩
            cases congrArg Prod.snd h
          · rintro ⟨⟨db', c, h⟩, -⟩
            cases congrArg Prod.snd h
      | ok c =>
          obtain ⟨hmember, hmsgs⟩ : db.Member c call.senderID ∧ db.messages = w.db.messages := by
            rcases findOrCreateChat_cases w.db env call.senderID call.receiverID with
              ⟨e, hf⟩ | ⟨d, hf, ha, -⟩ | ⟨d, hf, -, hcr⟩
            · rw [hf] at hfind
              cases congrArg Prod.snd hfind
            · rw [hf] at hfind
              cases hfind
              exact ⟨ha, rfl⟩
            · rw [hf] at hfind
              cases hfind
              exact ⟨(hcr.members _ _).mpr (Or.inr ⟨rfl, Or.inl rfl⟩), hcr.messages⟩
          rw [and_iff_right ⟨db, c, rfl⟩, ← hmsgs, ← insertMessage_isOk_iff
            call.body (db.member_chat _ hmember) (db.member_user _ hmember)]
          simp only [insertDM]
          cases hins : db.insertMessage env c call.senderID call.body with
          | error e =>
              refine iff_of_false ?_ ?_
              · rintro ⟨w', stored, h⟩
                cases congrArg Prod.snd h
              · rintro ⟨p, h⟩
                cases h
          | ok p => exact iff_of_true ⟨_, _, rfl⟩ ⟨p, rfl⟩

/-! ## Which reply is enqueued -/

/-- Room for the message and for its ack. -/
def RoomForTwo (h : Hub Frame) (u : UUID) : Prop :=
  ∃ c ∈ h.clients u, (h.chan c).buf.length + 1 < (h.chan c).cap

instance (h : Hub Frame) (u : UUID) : Decidable (RoomForTwo h u) :=
  inferInstanceAs (Decidable (∃ c ∈ _, _))

variable {w w' : World} {s : UUID} {env : Env}

theorem replies_of_log {l : List (ClientId × Frame)} (h : w'.hub.log = w.hub.log ++ l) :
    replies w w' s = (l.filter fun e => w.hub.userOf e.1 = s ∧ isReply e.2).map Prod.snd := by
  rw [replies, h, List.drop_left]

/-- Only a message to oneself takes the place of its own ack. -/
theorem enqueues_send_iff {h : Hub Frame} (hs : Enqueues h s) (r : UUID) (f : Frame) :
    Enqueues (h.send r f).1 s ↔ (r = s → RoomForTwo h s) := by
  obtain ⟨c, hc, hopen, hroom⟩ := hs
  by_cases hrs : r = s
  · subst hrs
    have hsend : h.send r f
        = (h.push c { h.chan c with buf := (h.chan c).buf ++ [f] } f, true) := by
      rw [Hub.send, hc]
      simp only [BufferedChan.offer_of_room f hopen hroom]
    rw [forall_prop_of_true rfl, hsend, Enqueues, RoomForTwo]
    simp only [push_clients]
    constructor
    · rintro ⟨d, hd, -, hd'⟩
      rw [hc] at hd
      cases hd
      rw [push_chan_self, List.length_append] at hd'
      exact ⟨c, hc, hd'⟩
    · rintro ⟨d, hd, hd'⟩
      rw [hc] at hd
      cases hd
      refine ⟨c, hc, ?_, ?_⟩
      · rw [push_chan_self]
        exact hopen
      · rw [push_chan_self, List.length_append]
        exact hd'
  · refine iff_of_true ⟨c, ?_, ?_⟩ fun heq => absurd heq hrs
    · rw [send_clients_ne h f (Ne.symm hrs)]
      exact hc
    · rw [send_chan_ne h f (by rw [Hub.userOf, h.owned s c hc]; exact Ne.symm hrs)]
      exact ⟨hopen, hroom⟩

/-- The ack is sent unless the message could neither be enqueued nor published. -/
theorem deliverDM_hub (w : World) (env : Env) (call : DmCall) (stored : Message) :
    (deliverDM w env call stored).1.hub =
      if Enqueues w.hub call.receiverID ∨ env.ok .publish = true then
        (((w.hub.send call.receiverID (call.outbound stored)).1).send call.senderID
          (call.ack stored)).1
      else (w.hub.send call.receiverID (call.outbound stored)).1 := by
  obtain ⟨hyes, hno⟩ := send_enqueues w.hub call.receiverID (call.outbound stored)
  rw [deliverDM, World.send]
  cases hs : w.hub.send call.receiverID (call.outbound stored) with
  | mk h delivered =>
      rw [hs] at hyes hno
      cases delivered with
      | true =>
          have hcan : Enqueues w.hub call.receiverID := by
            by_contra hnot
            cases (hno hnot).1
          rw [if_pos (Or.inl hcan)]
          simp [World.send]
      | false =>
          have hcannot : ¬ Enqueues w.hub call.receiverID := fun hcan => by cases (hyes hcan).1
          simp only [Bool.false_eq_true, if_false, World.publish]
          cases env.ok .publish with
          | true => simp [World.send]
          | false => simp [hcannot]

/-- What the sender is told of a stored message. -/
theorem replies_deliverDM (env : Env) {call : DmCall} (hs : Enqueues w.hub call.senderID)
    (stored : Message) : replies w (deliverDM w env call stored).1 call.senderID =
      if (Enqueues w.hub call.receiverID ∨ env.ok .publish = true) ∧
        (call.receiverID = call.senderID → RoomForTwo w.hub call.senderID) then
        [call.ack stored] else [] := by
  obtain ⟨hyes, hno⟩ := send_enqueues w.hub call.receiverID (call.outbound stored)
  obtain ⟨hack, hlost⟩ := send_enqueues (w.hub.send call.receiverID (call.outbound stored)).1
    call.senderID (call.ack stored)
  rw [enqueues_send_iff hs] at hack hlost
  -- what the delivery itself logs is no reply
  obtain ⟨l, hl, hquiet⟩ : ∃ l, (w.hub.send call.receiverID (call.outbound stored)).1.log
      = w.hub.log ++ l ∧ (l.filter fun e => w.hub.userOf e.1 = call.senderID ∧ isReply e.2) = [] := by
    by_cases hcan : Enqueues w.hub call.receiverID
    · obtain ⟨-, c, -, hlog⟩ := hyes hcan
      exact ⟨_, hlog, by simp [isReply, DmCall.outbound]⟩
    · exact ⟨[], by rw [(hno hcan).2, List.append_nil], rfl⟩
  by_cases hreach : Enqueues w.hub call.receiverID ∨ env.ok .publish = true
  · by_cases hroom : call.receiverID = call.senderID → RoomForTwo w.hub call.senderID
    · obtain ⟨-, c, hc, hlog⟩ := hack hroom
      have hlog' : (deliverDM w env call stored).1.hub.log
          = w.hub.log ++ (l ++ [(c, call.ack stored)]) := by
        rw [deliverDM_hub, if_pos hreach, hlog, hl, List.append_assoc]
      have huser : w.hub.userOf c = call.senderID := by
        rw [← send_userOf w.hub call.receiverID (call.outbound stored)]
        exact (w.hub.send call.receiverID (call.outbound stored)).1.owned _ _ hc
      rw [if_pos ⟨hreach, hroom⟩, replies_of_log hlog', List.filter_append, hquiet]
      simp [huser, isReply, DmCall.ack]
    · have hlog' : (deliverDM w env call stored).1.hub.log = w.hub.log ++ l := by
        rw [deliverDM_hub, if_pos hreach, (hlost hroom).2, hl]
      rw [if_neg fun h => hroom h.2, replies_of_log hlog', hquiet, List.map_nil]
  · have hlog' : (deliverDM w env call stored).1.hub.log = w.hub.log ++ l := by
      rw [deliverDM_hub, if_neg hreach, hl]
    rw [if_neg fun h => hreach h.1, replies_of_log hlog', hquiet, List.map_nil]

/-! ## When the answer is given, and true -/

/-- The frame is refused by the limiter; or it decodes and names a user, the message can be
    stored and then enqueued or published, and the sender's queue has room for the ack. -/
def Answerable (fmt : Formats) (l : Limiter) (w : World) (env : Env) (s : UUID)
    (senderName : String) (raw : List UInt8) : Prop :=
  (w.redis.allow l env s).2 = false ∨
    ∃ call, parseDM fmt s senderName raw = .ok call ∧
      Storable w.db env s call.receiverID call.body ∧
      (Enqueues w.hub call.receiverID ∨ env.ok .publish = true) ∧
      (call.receiverID = s → RoomForTwo w.hub s)

variable {fmt : Formats} {l : Limiter} {senderName : String} {raw : List UInt8}

theorem dispatch_message (hkind : baseKind raw = some .message) :
    dispatch fmt l w env s senderName raw =
      if (w.redis.allow l env s).2 then
        (handleDM fmt { w with redis := (w.redis.allow l env s).1 } env s senderName raw).1
      else ({ w with redis := (w.redis.allow l env s).1 }.send s .rateLimited).1 := by
  rw [dispatch, hkind]
  rfl

/-- A frame over the limit gets its error frame. -/
theorem answered_limited (hroom : Enqueues w.hub s) (redis : Redis) :
    AnsweredTruly fmt w ({ w with redis := redis }.send s .rateLimited).1 s senderName raw := by
  obtain ⟨-, c, hc, hlog⟩ := (send_enqueues w.hub s .rateLimited).1 hroom
  refine ⟨.rateLimited, ?_, Or.inr ⟨rfl, rfl⟩⟩
  have huser : w.hub.userOf c = s := w.hub.owned s c hc
  rw [replies_of_log (l := [(c, .rateLimited)]) hlog]
  simp [huser, isReply]

/-- Nothing enqueued is no answer. -/
theorem not_answered_of_hub (h : w'.hub = w.hub) :
    ¬ AnsweredTruly fmt w w' s senderName raw := by
  rintro ⟨f, hf, -⟩
  rw [replies_of_log (l := []) (by rw [h, List.append_nil])] at hf
  exact List.cons_ne_nil _ _ hf.symm

/-- The ack of a row that has just been stored is a true answer. -/
theorem answered_deliverDM {call : DmCall} {stored : Message} {env : Env}
    (hcall : parseDM fmt s senderName raw = .ok call)
    (hkeys : w'.db.messages.keys = w.db.messages.keys ++ [stored.id])
    (hin : stored ∈ w'.db.messages.rows) (hsender : stored.senderID = s)
    (hbody : stored.body = call.body)
    (hreplies : replies w (deliverDM w' env call stored).1 s = [call.ack stored]) :
    AnsweredTruly fmt w (deliverDM w' env call stored).1 s senderName raw := by
  obtain ⟨m, hm, hid, hsnd, hbdy⟩ := mem_deliverDM env call stored hin
  refine ⟨_, hreplies, Or.inl ⟨call, m, hcall, ?_, hm, ?_, ?_, ?_⟩⟩
  · rw [hid, ← hkeys]
    -- the delivery only sets a status
    rcases (deliverDM_db w' env call stored).1 with hdb | hdb
    · rw [hdb]
    · rw [hdb, setStatus_keys]
  · rw [hsnd, hsender]
  · rw [hbdy, hbody]
  · rw [DmCall.ack, DmCall.ack, hid]

/-- A decoded request is answered if its message can be stored and delivered. -/
theorem answered_runDM_iff {call : DmCall} (hcall : parseDM fmt s senderName raw = .ok call)
    (hroom : Enqueues w.hub s) (redis : Redis) :
    AnsweredTruly fmt w (runDM { w with redis := redis } env call).1 s senderName raw ↔
      Storable w.db env s call.receiverID call.body ∧
        (Enqueues w.hub call.receiverID ∨ env.ok .publish = true) ∧
        (call.receiverID = s → RoomForTwo w.hub s) := by
  obtain ⟨hs, -⟩ := parseDM_ok hcall
  have hiff := storeDM_isOk_iff { w with redis := redis } env call
  rw [hs] at hiff
  rw [runDM]
  rcases storeDM_cases { w with redis := redis } env call with ⟨e, db, hstore, -⟩ |
    ⟨db, stored, db', hstore, hfound, -, -, hsender, hbody, hst⟩
  · -- no row, and `Dispatch` only logs why
    rw [hstore] at hiff ⊢
    refine iff_of_false (not_answered_of_hub rfl) ?_
    rintro ⟨hstorable, -⟩
    obtain ⟨w', m, hok⟩ := hiff.mpr hstorable
    cases congrArg Prod.snd hok
  · rw [hstore] at hiff ⊢
    rw [and_iff_right (hiff.mp ⟨_, _, rfl⟩)]
    have hmsgs : db.messages = w.db.messages := by
      rcases hfound with rfl | ⟨-, hcr⟩
      · rfl
      · exact hcr.messages
    have hkeys : db'.messages.keys = w.db.messages.keys ++ [stored.id] := by
      rw [Table.keys, hst.messages, List.map_append, hmsgs]
      rfl
    have hin : stored ∈ db'.messages.rows := by
      rw [hst.messages]
      exact List.mem_concat_self
    have hroom' : Enqueues w.hub call.senderID := by
      rw [hs]
      exact hroom
    have hreplies := replies_deliverDM (w := { w with
      redis := redis, db := db', addressed := w.addressed ++ [(stored.id, call.receiverID)] })
      env hroom' stored
    rw [hs] at hreplies
    constructor
    · rintro ⟨f, hf, -⟩
      by_contra hnot
      rw [if_neg hnot] at hreplies
      exact List.cons_ne_nil _ _ (hf.symm.trans hreplies)
    · intro hcond
      rw [if_pos hcond] at hreplies
      exact answered_deliverDM hcall hkeys hin (hsender.trans hs) hbody hreplies

/-- **WHEN A MESSAGE IS ANSWERED**. -/
theorem answered_iff (hkind : baseKind raw = some .message) (hroom : Enqueues w.hub s) :
    AnsweredTruly fmt w (dispatch fmt l w env s senderName raw) s senderName raw ↔
      Answerable fmt l w env s senderName raw := by
  rw [dispatch_message hkind, Answerable]
  cases hallow : (w.redis.allow l env s).2 with
  | false =>
      rw [if_neg Bool.false_ne_true]
      exact iff_of_true (answered_limited hroom _) (Or.inl rfl)
  | true =>
      rw [if_pos rfl, or_iff_right Bool.noConfusion, handleDM]
      cases hparse : parseDM fmt s senderName raw with
      | error e =>
          refine iff_of_false (not_answered_of_hub rfl) ?_
          rintro ⟨call, hcall, -⟩
          cases hcall
      | ok call =>
          simp only
          rw [answered_runDM_iff hparse hroom]
          constructor
          · intro hcond
            exact ⟨call, rfl, hcond⟩
          · rintro ⟨call', hcall, hcond⟩
            cases hcall
            exact hcond

/-! ## Alice writes to bob, who is not here -/

/-- Alice is connected, and nobody else. -/
def aliceHere : World :=
  let w := World.start threeUsers fun _ => (⟨1⟩, "alice")
  { w with hub := w.hub.register 0 }

def hiBob : List UInt8 :=
  JsonScan.ascii ("\x7b\"type\":\"message\",\"to\":\"00000000-0000-0000-0000-000000000002\"," ++
    "\"body\":\"hi\",\"id\":\"c1\"\x7d")

/-- A payload that names nobody. -/
def hiNobody : List UInt8 :=
  JsonScan.ascii "\x7b\"type\":\"message\",\"to\":\"bob\",\"body\":\"hi\",\"id\":\"c1\"\x7d"

/-- Redis is down for the `Publish` only. -/
def publishDown : Env := { Env.fine ⟨10⟩ ⟨20⟩ 1 with ok := fun st => st ≠ .publish }

theorem hiBob_parses :
    parseDM plainFormats ⟨1⟩ "alice" hiBob = .ok ⟨⟨1⟩, "alice", ⟨2⟩, "hi", "c1"⟩ := by
  decide +kernel

/-- **THE ROW IS STORED AND ALICE IS TOLD NOTHING**; nor is she when the receiver's id does
    not parse. -/
theorem stored_unanswered :
    (Enqueues aliceHere.hub ⟨1⟩ ∧
      (dispatch plainFormats newLimiter aliceHere publishDown ⟨1⟩ "alice"
        hiBob).db.messages.keys = [⟨20⟩] ∧
      ¬ AnsweredTruly plainFormats aliceHere (dispatch plainFormats newLimiter aliceHere
        publishDown ⟨1⟩ "alice" hiBob) ⟨1⟩ "alice" hiBob) ∧
    ¬ AnsweredTruly plainFormats aliceHere (dispatch plainFormats newLimiter aliceHere
      (Env.fine ⟨10⟩ ⟨20⟩ 1) ⟨1⟩ "alice" hiNobody) ⟨1⟩ "alice" hiNobody := by
  have hsilent : (replies aliceHere (dispatch plainFormats newLimiter aliceHere
      publishDown ⟨1⟩ "alice" hiBob) ⟨1⟩).length = 0 := by decide +kernel
  have hsilent' : (replies aliceHere (dispatch plainFormats newLimiter aliceHere
      (Env.fine ⟨10⟩ ⟨20⟩ 1) ⟨1⟩ "alice" hiNobody) ⟨1⟩).length = 0 := by decide +kernel
  refine ⟨⟨by decide +kernel, by decide +kernel, ?_⟩, ?_⟩
  · rintro ⟨f, hf, -⟩
    rw [hf] at hsilent
    cases hsilent
  · rintro ⟨f, hf, -⟩
    rw [hf] at hsilent'
    cases hsilent'

/-- With everything up she has her ack. -/
theorem answered_hiBob : AnsweredTruly plainFormats aliceHere (dispatch plainFormats newLimiter
    aliceHere (Env.fine ⟨10⟩ ⟨20⟩ 1) ⟨1⟩ "alice" hiBob) ⟨1⟩ "alice" hiBob := by
  refine (answered_iff (by decide +kernel) (by decide +kernel)).mpr
    (Or.inr ⟨_, hiBob_parses, ⟨⟨rfl, Or.inr ?_⟩, ⟨rfl, by decide⟩, by decide⟩, Or.inr rfl,
      by decide⟩)
  exact ⟨by decide, by decide, by decide, by decide, rfl, rfl, rfl, rfl⟩

end PeerReply
