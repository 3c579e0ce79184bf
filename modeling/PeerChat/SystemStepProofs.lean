import PeerChat.SystemVouchProofs

/-! # One step of an instance

    A payload that arrives, and a goroutine that takes a step: the tables grow, what
    goes out is `Told`, what is stored is stored for somebody a token was handed out
    to, and every goroutine can go on relying on what it was told.  The first is
    `advance_receives`, the second `advance_task`. -/

namespace PeerSystem

open PeerEnv KeyedTable PeerHub PeerRouter PeerStore PeerFrame PeerRedis PeerWorld PeerHandler
open PeerDispatch JsonScan JsonDecode PeerAuth PeerCluster ThreadPool

/-! ## Handlers that touch no table -/

/-- Nothing but `P` was put on the air, and the tables were left alone. -/
structure Aired (P : UUID → Frame → Prop) (w w' : World) : Prop where
  emits : Emits P w w'
  heard : Heard P w.router → Heard P w'.router
  db : w'.db = w.db

variable {P : UUID → Frame → Prop} {w w' w'' : World} {env : Env} {fmt : Formats}

/-- A step that sends nothing airs nothing. -/
theorem Aired.refl (w : World) : Aired P w w := ⟨Emits.refl w, id, rfl⟩

/-- What two steps air one after the other is aired by both. -/
theorem Aired.trans (h : Aired P w w') (h' : Aired P w' w'') : Aired P w w'' :=
  ⟨h.emits.trans h'.emits, fun hr => h'.heard (h.heard hr), h'.db.trans h.db⟩

/-- The keys of Redis are no frames. -/
theorem aired_redis (w : World) (redis : Redis) : Aired P w { w with redis := redis } :=
  ⟨Emits.of_quiet rfl rfl, id, rfl⟩

/-- A `hub.Send` airs its frame. -/
theorem aired_send (w : World) {u : UUID} {f : Frame} (hp : P u f) : Aired P w (w.send u f).1 :=
  ⟨emits_send w hp, id, rfl⟩

/-- A `Publish` airs its frame. -/
theorem aired_publish {u : UUID} {f : Frame} (hp : P u f) (h : w.publish env u f = some w') :
    Aired P w w' := by
  refine ⟨emits_publish h hp, ?_, (publish_some h).1⟩
  intro hr
  rw [World.publish] at h
  split at h
  · cases h
    exact hr.publish hp
  · cases h

/-- A frame is sent, or published where that fails. -/
theorem aired_sendOrPublish (w : World) {u : UUID} {f : Frame} (hp : P u f) :
    Aired P w (w.sendOrPublish env u f) := by
  have hsend := aired_send w hp
  rw [World.sendOrPublish]
  cases hs : w.send u f with
  | mk w₁ delivered =>
      rw [hs] at hsend
      cases delivered with
      | true => exact hsend
      | false =>
          simp only [Bool.false_eq_true, if_false]
          cases hpub : w₁.publish env u f with
          | none => exact hsend
          | some w₂ => exact hsend.trans (aired_publish hp hpub)

/-- A typing frame goes to everybody named. -/
theorem aired_typingFanOut {senderID : UUID} {payload : Frame} (hp : ∀ u, P u payload) :
    ∀ (ids : List UUID) (w : World), Aired P w (typingFanOut w senderID payload ids) := by
  intro ids
  induction ids with
  | nil => exact fun w => Aired.refl w
  | cons id ids ih =>
      intro w
      rw [typingFanOut]
      refine Aired.trans ?_ (ih _)
      split
      · exact aired_send w (hp id)
      · exact Aired.refl w

/-- `SetTyping` airs typing frames only. -/
theorem aired_typing {senderID : UUID} {senderName : String} {raw : List UInt8}
    (hp : ∀ u chatID, P u (.typing senderName senderID chatID)) :
    Aired P w (handleTyping fmt w env senderID senderName raw) := by
  simp only [handleTyping]
  split
  · exact Aired.refl w
  · exact (aired_redis w _).trans (aired_typingFanOut (fun u => hp u _) _ _)

/-- The answers to a presence check go to whoever asked. -/
theorem aired_presenceLoop {senderID : UUID} (hp : ∀ id st, P senderID (.presence id st)) :
    ∀ (ids : List String) (i : Nat) (w : World),
      Aired P w (presenceLoop fmt w env senderID i ids) := by
  intro ids
  induction ids with
  | nil => exact fun i w => Aired.refl w
  | cons id ids ih =>
      intro i w
      rw [presenceLoop]
      split
      · exact ih _ w
      · exact (aired_send w (hp _ _)).trans (ih _ _)

/-- A presence check airs an answer for each id. -/
theorem aired_presenceCheck {senderID : UUID} {raw : List UInt8}
    (hp : ∀ id st, P senderID (.presence id st)) :
    Aired P w (handlePresenceCheck fmt w env senderID raw) := by
  rw [handlePresenceCheck]
  split
  · exact Aired.refl w
  · simp only
    split
    · exact aired_presenceLoop hp _ _ w
    · exact Aired.refl w

/-- A ping is answered to its sender. -/
theorem aired_ping {senderID : UUID} (hp : P senderID .pong) :
    Aired P w (handlePing w env senderID) := by
  rw [handlePing]
  cases w.redis.setOnline env senderID with
  | none => exact aired_send w hp
  | some redis => exact (aired_redis w redis).trans (aired_send _ hp)

/-- A relay airs the one map. -/
theorem aired_relay {senderID : UUID} {senderName : String} {raw : List UInt8}
    (hp : ∀ u es, structEntries raw = some es →
      P u (.relay (relayMap fmt senderID senderName es))) :
    Aired P w (handleRelay fmt w env senderID senderName raw) := by
  rw [handleRelay]
  split
  · exact Aired.refl w
  · rename_i es hes
    split
    · exact Aired.refl w
    · exact aired_sendOrPublish w (hp _ es hes)

/-! ## A step of an instance -/

/-- The rows are the old ones, or of somebody who speaks. -/
structure Authored (x : Ctx) (db : Db) : Prop where
  messages : ∀ m ∈ db.messages.rows,
    (∃ m₀ ∈ x.db.messages.rows, m₀.id = m.id ∧ m₀.senderID = m.senderID) ∨
      ∃ name, x.Speaks m.senderID name
  groupMessages : ∀ m ∈ db.groupMessages.rows,
    m ∈ x.db.groupMessages.rows ∨ ∃ name, x.Speaks m.senderID name

/-- A step of an instance, and where it leaves what is known. -/
structure Advance (x : Ctx) (w : World) (ts : List Task) : Prop where
  grows : Grows x.db w.db
  users : ∀ c, w.hub.userOf c = (x.who c).1
  airs : Airs (x.withDb w.db).Told w
  authored : Authored x w.db
  chats : PeerChatStore.ChatRows x.db → PeerChatStore.ChatRows w.db
  vouched : ∀ t ∈ ts, (x.withDb w.db).Vouched t

variable {x : Ctx}

/-- A statement about other tables writes no message. -/
theorem Authored.same {db : Db} (hmessages : db.messages = x.db.messages)
    (hgroup : db.groupMessages = x.db.groupMessages) : Authored x db where
  messages m hm := Or.inl ⟨m, hmessages ▸ hm, rfl, rfl⟩
  groupMessages _ hm := Or.inl (hgroup ▸ hm)

/-- What was told of an instance is told of it after the tables have grown. -/
theorem Fits.airs_later (h : Fits x w) {db : Db} (hg : Grows x.db db) :
    Airs (x.withDb db).Told w :=
  h.airs.mono fun _ _ htold => Ctx.Told.le htold (Ctx.le_db hg)

/-- What is aired, and starts vouched tasks, is an advance. -/
theorem Aired.advance (h : Aired x.Told w w') (hfit : Fits x w) {l : List Task}
    (hl : ∀ t ∈ l, x.Vouched t) : Advance x w' l := by
  have hdb : w'.db = x.db := h.db.trans hfit.db
  have hsame : x.withDb w'.db = x := by rw [hdb]; rfl
  refine ⟨?_, fun c => (h.emits.users c).trans (hfit.users c), ?_, ?_, ?_, ?_⟩
  · rw [hdb]
    exact Grows.refl x.db
  · rw [hsame]
    exact hfit.airs.emits h.emits (h.heard hfit.airs.heard)
  · exact Authored.same (by rw [hdb]) (by rw [hdb])
  · rw [hdb]
    exact fun hchats => hchats
  · rw [hsame]
    exact hl

-- ── A payload ─────────────────────────────────────────────────────────────────

/-- The arrival of a payload is an advance. -/
theorem advance_begins (hfit : Fits x w) {senderID : UUID} {senderName : String}
    (hspeaks : x.Speaks senderID senderName) (raw : List UInt8) (kind : Kind) :
    Advance x (begins x.fmt w env senderID senderName raw kind).1
      (begins x.fmt w env senderID senderName raw kind).2 := by
  have hnamed := hfit.named senderID senderName hspeaks
  -- a payload that does not decode
  have hnothing : Advance x w [] :=
    (Aired.refl w).advance hfit fun t ht => by cases ht
  have hone : ∀ t, x.Vouched t → Advance x w [t] := fun t hv =>
    (Aired.refl w).advance hfit fun t' ht => by rw [List.mem_singleton.mp ht]; exact hv
  have hdone : ∀ w', Aired x.Told w w' → Advance x w' [] := fun w' h =>
    h.advance hfit fun t ht => by cases ht
  cases kind with
  | message =>
      simp only [begins]
      split
      · exact hnothing
      · rename_i call hparse
        obtain ⟨hid, hname⟩ := parseDM_ok hparse
        refine hone _ ?_
        show x.Speaks call.senderID call.senderName
        rw [hid, hname]
        exact hspeaks
  | groupMessage =>
      simp only [begins]
      split
      · exact hnothing
      · exact hone _ hspeaks
  | createGroup =>
      simp only [begins]
      split
      · exact hnothing
      · exact hone _ trivial
  | addMember =>
      simp only [begins]
      split
      · exact hnothing
      · exact hone _ trivial
  | leaveGroup =>
      simp only [begins]
      split
      · exact hnothing
      · exact hone _ trivial
  | ack =>
      simp only [begins]
      split
      · exact hnothing
      · exact hone _ trivial
  | typing => exact hdone _ (aired_typing fun u chatID => ⟨hnamed, trivial, trivial⟩)
  | presenceCheck => exact hdone _ (aired_presenceCheck fun id st => told_of_silent rfl)
  | ping => exact hdone _ (aired_ping (told_of_silent rfl))
  | webrtc =>
      refine hdone _ (aired_relay fun u es hes => ⟨?_, trivial, trivial⟩)
      exact ⟨senderID, senderName, raw, es, hnamed, hes, rfl⟩
  | other => exact hnothing

/-- **A PAYLOAD ARRIVES.** -/
theorem advance_receives (hfit : Fits x w) {senderID : UUID} {senderName : String}
    (hspeaks : x.Speaks senderID senderName) (raw : List UInt8) :
    Advance x (receives x.fmt w env senderID senderName raw).1
      (receives x.fmt w env senderID senderName raw).2 := by
  rw [receives]
  cases hkind : baseKind raw with
  | none => exact (Aired.refl w).advance hfit fun t ht => by cases ht
  | some kind =>
      simp only
      cases hlim : kind.limited with
      | false => exact advance_begins hfit hspeaks raw kind
      | true =>
          simp only [if_true]
          cases hallow : w.redis.allow newLimiter env senderID with
          | mk redis allowed =>
              have hfit' : Fits x { w with redis := redis } :=
                ⟨hfit.db, hfit.users, ⟨hfit.airs.log, hfit.airs.heard, hfit.airs.published⟩,
                  hfit.named, hfit.grouped⟩
              cases allowed with
              | false =>
                  exact (aired_send _ (told_of_silent rfl)).advance hfit' fun t ht => by cases ht
              | true => exact advance_begins hfit' hspeaks raw kind

-- ── A goroutine ───────────────────────────────────────────────────────────────

/-- What a goroutine of a connection has in hand, it may say. -/
theorem told_of_onAir {t : PeerServer.Thread} (hv : x.Socket t) :
    ∀ e ∈ onAir t, x.Told e.1 e.2 := by
  intro e he
  cases t with
  | dmPublish call stored =>
      cases he
      exact hv
  | ackPublish senderID messageID =>
      cases he
      exact told_of_silent rfl
  | send k pc =>
      cases he
      exact hv.1
  | _ => cases he

/-- Only the insert of `HandleDM` stores a message, and its sender speaks. -/
theorem authored_socket {t t' : PeerServer.Thread} {new : List PeerServer.Thread}
    (hdb : w.db = x.db) (hv : x.Socket t) (h : PeerServer.ThreadStep w env t w' t' new) :
    Authored x w'.db where
  messages := by
    intro m hm
    rcases PeerServer.row_of_step h hm with ⟨m₀, hm₀, hid, -, hsender, -⟩ |
      ⟨call, ht, -, -, -, hsender, -⟩
    · exact Or.inl ⟨m₀, hdb ▸ hm₀, hid, hsender⟩
    · rw [ht] at hv
      exact Or.inr ⟨call.senderName, hsender ▸ hv.1⟩
  groupMessages := by
    intro m hm
    rw [groupMessages_socket h, hdb] at hm
    exact Or.inl hm

/-- Every statement of a connection's goroutine is an advance. -/
theorem advance_socket (hfit : Fits x w) {t t' : PeerServer.Thread}
    {new : List PeerServer.Thread} (hv : x.Socket t)
    (h : PeerServer.stepThread w env t = some (w', t', new)) :
    Advance x w' (.socket t' :: new.map .socket) := by
  have hstep := PeerServer.threadStep_of_stepThread h
  have hgrows : Grows x.db w'.db := hfit.db ▸ grows_socket hstep
  have htold : ∀ e ∈ onAir t, (x.withDb w'.db).Told e.1 e.2 := fun e he =>
    Ctx.Told.le (told_of_onAir hv e he) (Ctx.le_db hgrows)
  have hlater := hfit.airs_later hgrows
  have hemits : Emits (x.withDb w'.db).Told w w' := by
    refine emits_socket h htold ?_
    rintro k c rfl
    rw [hfit.users]
    exact hv.2.1 c rfl
  have hchats : PeerChatStore.ChatRows x.db → PeerChatStore.ChatRows w'.db := by
    intro hchats
    rw [← hfit.db] at hchats
    refine hchats.of_threadStep hstep ?_
    rintro call chatID rfl
    rw [hfit.db]
    exact hv.2.1
  refine ⟨hgrows, fun c => (hemits.users c).trans (hfit.users c),
    hlater.emits hemits (heard_socket h htold hlater.heard), authored_socket hfit.db hv hstep,
    hchats, ?_⟩
  intro n hn
  rcases List.mem_cons.mp hn with rfl | hn
  · exact vouched_socket hfit hv h
  · obtain ⟨n', hn', rfl⟩ := List.mem_map.mp hn
    obtain ⟨sub, rfl⟩ := new_of_step hstep hn'
    trivial

/-- A group handler leaves the chats alone. -/
theorem chats_group {db db' : Db} {hub hub' : Hub Frame} {t t' : PeerGroupRun.Thread}
    (h : PeerGroupRun.ThreadStep db hub env t db' hub' t')
    (hchats : PeerChatStore.ChatRows db) : PeerChatStore.ChatRows db' := by
  have hkeep : db'.chats = db.chats → db'.chatMembers = db.chatMembers →
      PeerChatStore.ChatRows db' := by
    intro hsame hmembers
    refine hchats.keep hsame hmembers ?_
    intro m hm
    rw [messages_group h] at hm
    rw [Db.Member, hmembers]
    exact hchats.senders m hm
  cases h with
  | stored senderID senderName call db' stored hi =>
      obtain ⟨hsame, hmembers, -⟩ := insertGroupMessage_tables hi
      exact hkeep hsame hmembers
  | created creatorID name db' group hc =>
      exact hkeep (createGroup_sameRows hc).chats (createGroup_sameRows hc).chatMembers
  | added adderID groupID userID db' ha =>
      exact hkeep (addGroupMember_sameRows ha).chats (addGroupMember_sameRows ha).chatMembers
  | left userID groupID => exact hkeep rfl rfl
  | _ => exact hchats

/-- Every statement of a group handler is an advance. -/
theorem advance_group (hfit : Fits x w) {t t' : PeerGroupRun.Thread} {db' : Db}
    {hub' : Hub Frame} (hv : x.Group t)
    (h : PeerGroupRun.stepThread w.db w.hub env t = some (db', hub', t')) :
    Advance x { w with db := db', hub := hub' } [.group t'] := by
  have hstep := PeerGroupRun.threadStep_of_stepThread h
  rw [hfit.db] at hstep
  have hgrows : Grows x.db db' := grows_group hstep
  have hlater := hfit.airs_later hgrows
  have hemits : Emits (x.withDb db').Told w { w with db := db', hub := hub' } := by
    cases hstep with
    | sent toID data next =>
        have hsend := emits_send (Q := (x.withDb x.db).Told) w hv.1
        exact ⟨hsend.users, hsend.log, hsend.published⟩
    | _ => exact Emits.of_quiet rfl rfl
  refine ⟨hgrows, fun c => (hemits.users c).trans (hfit.users c),
    hlater.emits hemits hlater.heard, ⟨?_, ?_⟩, chats_group hstep, ?_⟩
  · intro m hm
    rw [messages_group hstep] at hm
    exact Or.inl ⟨m, hm, rfl, rfl⟩
  · intro m hm
    rcases groupRow_of_step hstep hm with hold | ⟨name, call, ht⟩
    · exact Or.inl hold
    · rw [ht] at hv
      exact Or.inr ⟨name, hv⟩
  · intro n hn
    rw [List.mem_singleton.mp hn]
    exact vouched_group hfit.named hfit.grouped hv hstep

/-- Every statement of a `GET /messages` is an advance. -/
theorem advance_request (hfit : Fits x w) {callerID : UUID} {r r' : PeerChatStore.Request}
    {db' : Db} (hv : x.Vouched (.request callerID r))
    (h : PeerChatStore.stepRequest w.db env r = some (db', r')) :
    Advance x { w with db := db' } [.request callerID r'] := by
  rw [hfit.db] at h
  obtain ⟨hgrows, hmessages, hgroup⟩ := grows_request h
  have hlater := hfit.airs_later hgrows
  obtain ⟨⟨name, hspeaks⟩, hrequest⟩ := hv
  refine ⟨hgrows, hfit.users, ⟨hlater.log, hlater.heard, hlater.published⟩,
    Authored.same hmessages hgroup, fun hchats => (hchats.of_request h).1, ?_⟩
  intro n hn
  rw [List.mem_singleton.mp hn]
  exact ⟨⟨name, hspeaks⟩, vouched_request hrequest h⟩

/-- **A GOROUTINE TAKES A STEP.** -/
theorem advance_task (hfit : Fits x w) {t t' : Task} {new : List Task} (hv : x.Vouched t)
    (h : stepTask w env t = some (w', t', new)) : Advance x w' (t' :: new) := by
  cases t with
  | socket t =>
      simp only [stepTask] at h
      split at h
      · cases h
      · rename_i w₁ t₁ new₁ hs
        cases h
        exact advance_socket hfit hv hs
  | group t =>
      simp only [stepTask] at h
      split at h
      · cases h
      · rename_i db₁ hub₁ t₁ hs
        cases h
        exact advance_group hfit hv hs
  | request callerID r =>
      simp only [stepTask] at h
      split at h
      · cases h
      · rename_i db₁ r₁ hs
        cases h
        exact advance_request hfit hv hs

end PeerSystem
