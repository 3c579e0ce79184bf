import PeerChat.HandlerProofs

/-! # Who may mark a message read

    `HandleAck` takes the message and the sender to notify from the payload and
    never asks who is reading.  This file says what an authorised receipt is and
    on exactly which acks the handler produces nothing else. -/

namespace PeerReceipt

open PeerEnv BufferedChan KeyedTable PeerHub PeerStore PeerFrame PeerWorld PeerHandler

/-- The reader is in the message's chat and did not send the message. -/
def MayRead (db : Db) (readerID : UUID) (m : Message) : Prop :=
  db.Member m.chatID readerID ∧ readerID ≠ m.senderID

instance (db : Db) (readerID : UUID) (m : Message) : Decidable (MayRead db readerID m) :=
  inferInstanceAs (Decidable (_ ∧ _))

/-- No user but `r` has had its slot or a queue touched, or something published
    for it. -/
def OthersUntouched (r : UUID) (w w' : World) : Prop :=
  (∀ u, u ≠ r → w'.hub.clients u = w.hub.clients u) ∧
    (∀ c, w.hub.userOf c ≠ r → w'.hub.chan c = w.hub.chan c) ∧
    ∀ e ∈ w'.published.drop w.published.length, e.1 = r

/-- **AN AUTHORISED RECEIPT**: what `HandleAck` may do to the world when `r` acks
    the message `acked` (if the payload names one). -/
structure ReceiptAuthorised (r : UUID) (acked : Option UUID) (w w' : World) : Prop where
  /-- A message becomes 'read' only by a reader of it. -/
  status : ∀ m ∈ w.db.messages.rows, m.status ≠ .read → ∀ m' ∈ w'.db.messages.rows,
    m'.id = m.id → m'.status = .read → MayRead w.db r m
  /-- The notification of a message goes to its stored sender only. -/
  notify : ∀ u id, (u, Frame.read id) ∈ newFrames w w' →
    ∀ m ∈ w.db.messages.rows, m.id = id → u = m.senderID
  /-- Anybody else's ack changes nothing for others. -/
  others : (∀ m ∈ w.db.messages.rows, acked = some m.id → ¬ MayRead w.db r m) →
    w'.db.messages.rows = w.db.messages.rows ∧ OthersUntouched r w w'

/-- The message a payload acks. -/
def ackedOf (fmt : Formats) (raw : List UInt8) : Option UUID :=
  match parseAck fmt raw with
  | .ok call => some call.messageID
  | .error _ => none

/-- The condition on an ack: whenever the payload decodes and the update goes
    through, the reader may read the acked message unless it is 'read' already;
    a sender that is named and that the notification gets to is the message's
    sender; and a named sender other than the reader, whose queue or channel the
    notification touches, is only named by somebody who may read the message. -/
def AckHarmless (fmt : Formats) (w : World) (env : Env) (r : UUID)
    (raw : List UInt8) : Prop :=
  ∀ call, parseAck fmt raw = .ok call → env.ok .updateStatus = true →
    (∀ m ∈ w.db.messages.rows, m.id = call.messageID → m.status ≠ .read →
      MayRead w.db r m) ∧
    ∀ s, call.senderID = some s →
      (Enqueues w.hub s ∨ env.ok .publish = true →
        ∀ m ∈ w.db.messages.rows, m.id = call.messageID → s = m.senderID) ∧
      ((∃ c, w.hub.clients s = some c ∧ (w.hub.chan c).closed = false) ∨
          env.ok .publish = true →
        s = r ∨ ∃ m ∈ w.db.messages.rows, m.id = call.messageID ∧ MayRead w.db r m)

/-! ## What a `Send` touches -/

/-- A `Send` to a user with an open client shows in that user's slot or queue. -/
theorem send_touches {h : Hub Frame} {s : UUID} {c : ClientId} {f : Frame}
    (hc : h.clients s = some c) (hopen : (h.chan c).closed = false) :
    (h.send s f).1.clients s ≠ h.clients s ∨ (h.send s f).1.chan c ≠ h.chan c := by
  rcases send_cases h s f with ⟨hno, -⟩ | ⟨d, ch, hd, hoff, hs⟩ | ⟨d, hd, -, hs⟩ |
    ⟨d, hd, hcl, -⟩
  · rw [hno] at hc
    cases hc
  · have hdc : d = c := Option.some.inj (hd.symm.trans hc)
    rw [hs]
    right
    intro heq
    have hbuf := congrArg (fun ch => ch.buf.length) heq
    rw [hdc] at hoff
    rw [hdc] at hbuf
    simp [push_chan_self, (offer_sent hoff).2.2] at hbuf
  · rw [hs]
    left
    have hdc : d = c := Option.some.inj (hd.symm.trans hc)
    have huser : h.userOf c = s := h.owned s c hc
    intro heq
    have hnone := unregister_clients_self (holds_of_clients hc)
    rw [huser] at hnone
    rw [hdc, hnone, hc] at heq
    cases heq
  · have hdc : d = c := Option.some.inj (hd.symm.trans hc)
    rw [hdc, hopen] at hcl
    cases hcl

/-- A notification that finds an open client, or that Redis takes, touches its addressee,
    and no other does. -/
theorem othersUntouched_sendOrPublish {w : World} {env : Env} {r s : UUID} {f : Frame} :
    OthersUntouched r w (w.sendOrPublish env s f) ↔
      ((∃ c, w.hub.clients s = some c ∧ (w.hub.chan c).closed = false) ∨
        env.ok .publish = true → s = r) := by
  constructor
  · rintro ⟨hclients, hchans, hpub⟩ htouch
    by_contra hne
    simp only [sendOrPublish_hub, sendOrPublish_published] at hclients hchans hpub
    by_cases hopen : ∃ c, w.hub.clients s = some c ∧ (w.hub.chan c).closed = false
    · obtain ⟨c, hc, hcl⟩ := hopen
      have huser : w.hub.userOf c = s := w.hub.owned s c hc
      rcases send_touches (f := f) hc hcl with hslot | hchan
      · exact hslot (hclients s hne)
      · exact hchan (hchans c (by rw [huser]; exact hne))
    · have hpublish : env.ok .publish = true := htouch.resolve_left hopen
      have hret : (w.hub.send s f).2 = false := by
        refine ((send_enqueues w.hub s _).2 ?_).1
        rintro ⟨c, hc, hcl, -⟩
        exact hopen ⟨c, hc, hcl⟩
      rw [if_pos ⟨hret, hpublish⟩, List.drop_left] at hpub
      exact hne (hpub _ (List.mem_singleton.mpr rfl))
  · intro hs
    rw [OthersUntouched]
    simp only [sendOrPublish_hub, sendOrPublish_published, List.drop_left]
    by_cases htouch : (∃ c, w.hub.clients s = some c ∧ (w.hub.chan c).closed = false) ∨
        env.ok .publish = true
    · rw [← hs htouch]
      refine ⟨fun u hu => send_clients_ne w.hub f hu, fun c hc => send_chan_ne w.hub f hc, ?_⟩
      intro e he
      split at he
      · rw [List.mem_singleton.mp he]
      · cases he
    · -- nobody is there: the `Send` finds no open client, `Publish` fails
      rw [not_or] at htouch
      have hkept : (w.hub.send s f).1.clients = w.hub.clients ∧
          (w.hub.send s f).1.chan = w.hub.chan := by
        rcases send_cases w.hub s f with ⟨-, hsend⟩ | ⟨c, ch, hc, hoff, -⟩ | ⟨c, hc, hoff, -⟩ |
          ⟨c, -, -, hsend⟩
        · rw [hsend]
          exact ⟨rfl, rfl⟩
        · exact absurd ⟨c, hc, (offer_sent hoff).1⟩ htouch.1
        · exact absurd ⟨c, hc, (offer_full hoff).1⟩ htouch.1
        · rw [hsend]
          exact ⟨rfl, rfl⟩
      rw [hkept.1, hkept.2]
      refine ⟨fun _ _ => rfl, fun _ _ => rfl, ?_⟩
      intro e he
      rw [if_neg (fun h => htouch.2 h.2)] at he
      cases he

/-! ## The exact condition -/

/-- Setting a status that is set already changes no row. -/
theorem setStatus_of_all {db : Db} {id : UUID} {st : Status}
    (h : ∀ m ∈ db.messages.rows, m.id = id → m.status = st) :
    (db.setStatus id st).messages.rows = db.messages.rows := by
  show db.messages.rows.map _ = _
  refine (List.map_congr_left ?_).trans (List.map_id _)
  intro m hm
  by_cases hid : m.id = id
  · rw [if_pos hid]
    simp only [Message.withStatus]
    rw [← h m hm hid]
    rfl
  · rw [if_neg hid]
    rfl

/-- What `HandleAck` does with a decoded ack whose update goes through. -/
theorem runAck_ok {w : World} {env : Env} {call : AckCall}
    (hok : env.ok .updateStatus = true) :
    (runAck w env call).1 =
      match call.senderID with
      | none => { w with db := w.db.setStatus call.messageID .read }
      | some s => World.sendOrPublish
          { w with db := w.db.setStatus call.messageID .read } env s
          (.read call.messageID) := by
  rw [runAck, Db.updateMessageStatus]
  rw [if_pos hok]
  cases call.senderID <;> rfl

theorem runAck_failed {w : World} {env : Env} {call : AckCall}
    (hok : env.ok .updateStatus = false) : (runAck w env call).1 = w := by
  rw [runAck, Db.updateMessageStatus]
  rw [if_neg (by rw [hok]; exact Bool.false_ne_true)]

/-- Whom it notifies. -/
theorem mem_newFrames_runAck {w : World} {env : Env} {call : AckCall} {u id : UUID}
    (hok : env.ok .updateStatus = true) :
    (u, Frame.read id) ∈ newFrames w (runAck w env call).1 ↔
      call.senderID = some u ∧ call.messageID = id ∧
        (Enqueues w.hub u ∨ env.ok .publish = true) := by
  rw [runAck_ok hok]
  cases hs : call.senderID with
  | none => simp [newFrames]
  | some s =>
      change (u, Frame.read id) ∈ newFrames
        { w with db := w.db.setStatus call.messageID .read } _ ↔ _
      rw [newFrames_sendOrPublish]
      split
      · rename_i hreach
        rw [List.mem_singleton, Prod.mk.injEq, Frame.read.injEq, Option.some.injEq]
        constructor
        · rintro ⟨rfl, rfl⟩
          exact ⟨rfl, rfl, hreach⟩
        · rintro ⟨rfl, rfl, -⟩
          exact ⟨rfl, rfl⟩
      · rename_i hnone
        refine iff_of_false List.not_mem_nil ?_
        rintro ⟨heq, -, hreach⟩
        rw [Option.some.inj heq] at hnone
        exact hnone hreach

theorem receiptAuthorised_refl (r : UUID) (acked : Option UUID) (w : World) :
    ReceiptAuthorised r acked w w := by
  refine ⟨?_, ?_, ?_⟩
  · intro m hm hne m' hm' hid hst
    rw [eq_of_key hm' hm hid] at hst
    exact absurd hst hne
  · intro u id hmem
    simp [newFrames] at hmem
  · intro _
    refine ⟨rfl, fun _ _ => rfl, fun _ _ => rfl, ?_⟩
    intro e he
    simp at he

/-- The row an update to 'read' leaves behind. -/
theorem setRead_status {db : Db} {id : UUID} {m m' : Message}
    (hm : m ∈ db.messages.rows) (hm' : m' ∈ (db.setStatus id .read).messages.rows)
    (hid : m'.id = m.id) (hne : m.status ≠ .read) (hst : m'.status = .read) :
    m.id = id := by
  obtain ⟨m₀, hm₀, heq⟩ := mem_setStatus.mp hm'
  have hid₀ : m₀.id = m'.id := by
    rw [heq]
    split <;> rfl
  have hmm : m₀ = m := eq_of_key hm₀ hm (hid₀.trans hid)
  rw [hmm] at heq
  by_contra hneq
  rw [if_neg hneq] at heq
  rw [heq] at hst
  exact hne hst

/-- The three parts of an authorised receipt, for an ack whose update goes
    through: each is one part of the condition. -/
theorem receiptAuthorised_runAck {w : World} {env : Env} {r : UUID} {call : AckCall}
    (hok : env.ok .updateStatus = true) :
    ReceiptAuthorised r (some call.messageID) w (runAck w env call).1 ↔
      (∀ m ∈ w.db.messages.rows, m.id = call.messageID → m.status ≠ .read →
        MayRead w.db r m) ∧
      ∀ s, call.senderID = some s →
        (Enqueues w.hub s ∨ env.ok .publish = true →
          ∀ m ∈ w.db.messages.rows, m.id = call.messageID → s = m.senderID) ∧
        ((∃ c, w.hub.clients s = some c ∧ (w.hub.chan c).closed = false) ∨
            env.ok .publish = true →
          s = r ∨ ∃ m ∈ w.db.messages.rows, m.id = call.messageID ∧
            MayRead w.db r m) := by
  have hdb : (runAck w env call).1.db = w.db.setStatus call.messageID .read := by
    rw [runAck_ok hok]
    cases call.senderID with
    | none => rfl
    | some s => exact sendOrPublish_db _ env s _
  have hfresh : ∀ m ∈ w.db.messages.rows, m.id = call.messageID →
      m.withStatus .read ∈ (runAck w env call).1.db.messages.rows := by
    intro m hm hid
    rw [hdb]
    exact mem_setStatus.mpr ⟨m, hm, by rw [if_pos hid]⟩
  constructor
  · intro h
    refine ⟨?_, ?_⟩
    · intro m hm hid hne
      exact h.status m hm hne _ (hfresh m hm hid) rfl rfl
    · intro s hs
      refine ⟨?_, ?_⟩
      · intro hreach m hm hid
        exact h.notify s call.messageID ((mem_newFrames_runAck hok).mpr ⟨hs, rfl, hreach⟩) m hm hid
      · intro htouch
        by_contra hnone
        rw [not_or, not_exists] at hnone
        have hothers := (h.others (by
          intro m hm hid
          have hid' : call.messageID = m.id := Option.some.inj hid
          exact fun hmay => hnone.2 m ⟨hm, hid'.symm, hmay⟩)).2
        rw [runAck_ok hok, hs] at hothers
        exact hnone.1 (othersUntouched_sendOrPublish.mp hothers htouch)
  · rintro ⟨hstatus, hsender⟩
    refine ⟨?_, ?_, ?_⟩
    · intro m hm hne m' hm' hid hst
      rw [hdb] at hm'
      exact hstatus m hm (setRead_status hm hm' hid hne hst) hne
    · intro u id hmem m hm hid
      obtain ⟨hs, rfl, hreach⟩ := (mem_newFrames_runAck hok).mp hmem
      exact (hsender u hs).1 hreach m hm hid
    · intro hunauth
      have hread : ∀ m ∈ w.db.messages.rows, m.id = call.messageID →
          m.status = .read := by
        intro m hm hid
        by_contra hne
        exact hunauth m hm (by rw [hid]) (hstatus m hm hid hne)
      refine ⟨by rw [hdb]; exact setStatus_of_all hread, ?_⟩
      rw [runAck_ok hok]
      cases hs : call.senderID with
      | none => exact ⟨fun _ _ => rfl, fun _ _ => rfl, by intro e he; simp at he⟩
      | some s =>
          refine othersUntouched_sendOrPublish.mpr ?_
          intro htouch
          rcases (hsender s hs).2 htouch with hsr | ⟨m, hm, hid, hmay⟩
          · exact hsr
          · exact absurd hmay (hunauth m hm (by rw [hid]))

/-- **RECEIPTS ARE AUTHORISED EXACTLY ON HARMLESS ACKS**: for every world, every
    reader and every payload. -/
theorem receiptAuthorised_iff (fmt : Formats) (w : World) (env : Env) (r : UUID)
    (raw : List UInt8) :
    ReceiptAuthorised r (ackedOf fmt raw) w (handleAck fmt w env r raw).1 ↔
      AckHarmless fmt w env r raw := by
  rw [handleAck, AckHarmless, ackedOf]
  cases hp : parseAck fmt raw with
  | error e =>
      constructor
      · intro _ call hcall
        cases hcall
      · intro _
        exact receiptAuthorised_refl r none w
  | ok call =>
      cases hok : env.ok .updateStatus with
      | true =>
          show ReceiptAuthorised r (some call.messageID) w (runAck w env call).1 ↔ _
          rw [receiptAuthorised_runAck hok]
          constructor
          · intro h call' hcall _
            rw [← Except.ok.inj hcall]
            exact h
          · intro h
            exact h call rfl rfl
      | false =>
          constructor
          · intro _ call' _ h
            cases h
          · intro _
            show ReceiptAuthorised r (some call.messageID) w (runAck w env call).1
            rw [runAck_failed hok]
            exact receiptAuthorised_refl r _ w

/-- Alice has sent Bob one message, and nobody is connected. -/
def aliceToBob : World :=
  (runDM (World.start threeUsers oneUser) (Env.fine ⟨10⟩ ⟨20⟩ 1)
    ⟨⟨1⟩, "alice", ⟨2⟩, "hi", "x"⟩).1

/-- Carol's ack of that message. -/
def carolsAck : List UInt8 :=
  JsonScan.ascii "\x7b\"type\":\"ack\",\"message_id\":\"00000000-0000-0000-0000-000000000014\"\x7d"

/-- Carol, who is not in the chat, marks Alice's message to Bob 'read'. -/
theorem outsider_marks_read : ¬ ∀ (w : World) (env : Env) (r : UUID)
    (raw : List UInt8), ReceiptAuthorised r (ackedOf plainFormats raw) w
      (handleAck plainFormats w env r raw).1 := by
  intro hall
  have hstatus := (hall aliceToBob (Env.fine ⟨11⟩ ⟨21⟩ 2) ⟨3⟩ carolsAck).status
    ⟨⟨20⟩, ⟨10⟩, ⟨1⟩, "hi", .sent, 1⟩ (by decide +kernel) (by decide)
    ⟨⟨20⟩, ⟨10⟩, ⟨1⟩, "hi", .read, 1⟩ (by decide +kernel) rfl rfl
  revert hstatus
  decide +kernel

end PeerReceipt
