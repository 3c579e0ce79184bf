import PeerChat.GroupHandlerProofs
import PeerChat.JsonEncodeProofs

/-! # `MessageDispatcher.Dispatch` of `main.go`

    The same bytes are decoded once to choose the branch, and again inside the
    branch.  The decodings into structs match keys by case folding, the last
    match winning; the relay's decoding into a map keeps every spelling.

    The frames a dispatch emits are therefore of three kinds: answers to the
    sender, frames of rows the dispatch stored, and the relay's copy of
    whatever the sender wrote. -/

namespace PeerDispatch

open PeerEnv JsonScan JsonDecode PeerHub PeerStore PeerFrame PeerRedis PeerWorld
open PeerHandler

/-- The cases of the `switch` on `base.Type`. -/
inductive Kind where
  | message
  | groupMessage
  | createGroup
  | addMember
  | leaveGroup
  | ack
  | typing
  | presenceCheck
  | ping
  | webrtc
  | other
  deriving DecidableEq

def kindOf (type : String) : Kind :=
  if type = "message" then .message
  else if type = "group_message" then .groupMessage
  else if type = "create_group" then .createGroup
  else if type = "add_member" then .addMember
  else if type = "leave_group" then .leaveGroup
  else if type = "ack" then .ack
  else if type = "typing" then .typing
  else if type = "presence_check" then .presenceCheck
  else if type = "ping" then .ping
  else if type = "webrtc_offer" ∨ type = "webrtc_answer" ∨ type = "ice_candidate" then
    .webrtc
  else .other

/-- "Rate limit all message-sending actions." -/
def Kind.limited : Kind → Bool
  | .message => true
  | .groupMessage => true
  | _ => false

/-- The branch of a payload; `none` when it does not decode. -/
def baseKind (raw : List UInt8) : Option Kind :=
  match structEntries raw with
  | none => none
  | some es =>
      let type := stringField "type" es
      if type.ok then some (kindOf type.value) else none

/-! ## `typing`, `presence_check`, `ping` -/

/-- The fan-out of `SetTyping`: every member but the sender. -/
def typingFanOut (w : World) (senderID : UUID) (payload : Frame) : List UUID → World
  | [] => w
  | memberID :: rest =>
      let w := if memberID ≠ senderID then (w.send memberID payload).1 else w
      typingFanOut w senderID payload rest

/-- The typing branch, with `SetTyping`. -/
def handleTyping (fmt : Formats) (w : World) (env : Env) (senderID : UUID)
    (senderName : String) (raw : List UInt8) : World :=
  -- the error of Unmarshal is dropped: fields keep what was decoded before it
  let es := (structEntries raw).getD []
  let chatText := (stringField "chat_id" es).value
  let chatID := (fmt.uuidParse chatText).getD (fmt.uuidOnError chatText)
  let memberIDs := (stringsField "members" es).value.filterMap fmt.uuidParse
  match w.redis.setTyping env chatID senderID with
  | none => w
  | some redis =>
      typingFanOut { w with redis := redis } senderID
        (.typing senderName senderID chatID) memberIDs

/-- The members a typing payload names. -/
def namedMembers (fmt : Formats) (raw : List UInt8) : List UUID :=
  (stringsField "members" ((structEntries raw).getD [])).value.filterMap fmt.uuidParse

/-- The chat it names. -/
def namedChat (fmt : Formats) (raw : List UInt8) : UUID :=
  let chatText := (stringField "chat_id" ((structEntries raw).getD [])).value
  (fmt.uuidParse chatText).getD (fmt.uuidOnError chatText)

/-- The loop of the presence branch, from the `i`-th id on. -/
def presenceLoop (fmt : Formats) (w : World) (env : Env) (senderID : UUID) :
    Nat → List String → World
  | _, [] => w
  | i, idStr :: rest =>
      match fmt.uuidParse idStr with
      | none => presenceLoop fmt w env senderID (i + 1) rest
      | some id =>
          let status := if w.redis.isOnline env i id then "online" else "offline"
          presenceLoop fmt (w.send senderID (.presence id status)).1 env senderID (i + 1)
            rest

def handlePresenceCheck (fmt : Formats) (w : World) (env : Env) (senderID : UUID)
    (raw : List UInt8) : World :=
  match structEntries raw with
  | none => w
  | some es =>
      let userIDs := stringsField "user_ids" es
      if userIDs.ok then presenceLoop fmt w env senderID 0 userIDs.value else w

def handlePing (w : World) (env : Env) (senderID : UUID) : World :=
  let w := match w.redis.setOnline env senderID with
    | some redis => { w with redis := redis }
    | none => w
  (w.send senderID .pong).1

/-! ## The WebRTC relay -/

/-- The relayed map: what the sender wrote, with `from` and `from_name` set and
    `to` deleted. -/
def relayMap (fmt : Formats) (senderID : UUID) (senderName : String)
    (es : List (String × Json)) : JsonMap :=
  let raw := interfaceEntries fmt.float64 [] es
  let raw := setKey raw "from" (.str (fmt.uuidString senderID))
  let raw := setKey raw "from_name" (.str senderName)
  deleteKey raw "to"

/-- The user a relay is for. -/
def relayTarget (fmt : Formats) (es : List (String × Json)) : Option UUID :=
  let target := stringField "to" es
  if target.ok then fmt.uuidParse target.value else none

def handleRelay (fmt : Formats) (w : World) (env : Env) (senderID : UUID)
    (senderName : String) (raw : List UInt8) : World :=
  match structEntries raw with
  | none => w
  | some es =>
      match relayTarget fmt es with
      | none => w
      | some targetID =>
          w.sendOrPublish env targetID (.relay (relayMap fmt senderID senderName es))

/-! ## The switch -/

/-- The branch taken once the limiter has let the payload through; errors are
    only logged. -/
def branch (fmt : Formats) (w : World) (env : Env) (senderID : UUID)
    (senderName : String) (raw : List UInt8) : Kind → World
  | .message => (handleDM fmt w env senderID senderName raw).1
  | .groupMessage => (handleGroupMessage fmt w env senderID senderName raw).1
  | .createGroup => (handleCreateGroup w env senderID raw).1
  | .addMember => (handleAddMember fmt w env senderID raw).1
  | .leaveGroup => (handleLeaveGroup fmt w env senderID raw).1
  | .ack => (handleAck fmt w env senderID raw).1
  | .typing => handleTyping fmt w env senderID senderName raw
  | .presenceCheck => handlePresenceCheck fmt w env senderID raw
  | .ping => handlePing w env senderID
  | .webrtc => handleRelay fmt w env senderID senderName raw
  | .other => w

/-- `Dispatch`. -/
def dispatch (fmt : Formats) (l : Limiter) (w : World) (env : Env) (senderID : UUID)
    (senderName : String) (raw : List UInt8) : World :=
  match baseKind raw with
  | none => w
  | some kind =>
      if kind.limited then
        let (redis, allowed) := w.redis.allow l env senderID
        let w := { w with redis := redis }
        if allowed then branch fmt w env senderID senderName raw kind
        else (w.send senderID .rateLimited).1
      else branch fmt w env senderID senderName raw kind

/-! ## Forged frames -/

/-- The frame shows the id, the body and the sender of a stored row by `s`. -/
def CarriesRow (fmt : Formats) (db : Db) (s : UUID) (f : Frame) : Prop :=
  (∃ m ∈ db.messages.rows, m.senderID = s ∧
    f.field fmt "message_id" = some (.str (fmt.uuidString m.id)) ∧
    f.field fmt "body" = some (.str m.body) ∧
    f.field fmt "from_id" = some (.str (fmt.uuidString m.senderID))) ∨
  ∃ m ∈ db.groupMessages.rows, m.senderID = s ∧
    f.field fmt "message_id" = some (.str (fmt.uuidString m.id)) ∧
    f.field fmt "body" = some (.str m.body) ∧
    f.field fmt "from_id" = some (.str (fmt.uuidString m.senderID))

/-- Was `limiter.Allow(s)` asked about this payload, and did it answer true? -/
def Allowed (l : Limiter) (w : World) (env : Env) (s : UUID) (raw : List UInt8) : Prop :=
  (∃ kind, baseKind raw = some kind ∧ kind.limited = true) ∧
    (w.redis.allow l env s).2 = true

/-- **NO FORGED CHAT FRAME**: what a dispatch sends to others and shows as a chat
    line is a row stored for its sender, after the limiter allowed it. -/
def NoForgery (fmt : Formats) (l : Limiter) (w : World) (env : Env) (s : UUID)
    (senderName : String) (raw : List UInt8) : Prop :=
  ∀ e ∈ newFrames w (dispatch fmt l w env s senderName raw), e.1 ≠ s →
    chatType (e.2.field fmt "type") →
      Allowed l w env s raw ∧
        CarriesRow fmt (dispatch fmt l w env s senderName raw).db s e.2

/-- The payloads that forge: a relay, by the struct's reading of `type`, to
    somebody who can be reached, whose map has a chat type under the exact key. -/
def RelaysChatType (fmt : Formats) (w : World) (env : Env) (s : UUID)
    (raw : List UInt8) : Prop :=
  baseKind raw = some .webrtc ∧
    ∃ es ∈ structEntries raw, ∃ target ∈ relayTarget fmt es, target ≠ s ∧
      (Enqueues w.hub target ∨ env.ok .publish = true) ∧
      chatType (lookup (interfaceEntries fmt.float64 [] es) "type")

variable {Q : UUID → Frame → Prop}

/-- The fan-out goes to the members but the sender. -/
theorem emits_typingFanOut {senderID : UUID} {payload : Frame} :
    ∀ (ids : List UUID) (w : World), (∀ u ∈ ids, u ≠ senderID → Q u payload) →
      Emits Q w (typingFanOut w senderID payload ids) := by
  intro ids
  induction ids with
  | nil => intro w _; exact Emits.refl w
  | cons id ids ih =>
      intro w hQ
      rw [typingFanOut]
      refine Emits.trans ?_ (ih _ fun u hu => hQ u (List.mem_cons_of_mem _ hu))
      split
      · rename_i hne
        exact emits_send w (hQ id List.mem_cons_self hne)
      · exact Emits.refl w

/-- The presence check answers whoever asked. -/
theorem emits_presenceLoop {fmt : Formats} {env : Env} {senderID : UUID}
    (hQ : ∀ f, Q senderID f) :
    ∀ (ids : List String) (i : Nat) (w : World),
      Emits Q w (presenceLoop fmt w env senderID i ids) := by
  intro ids
  induction ids with
  | nil => intro i w; exact Emits.refl w
  | cons id ids ih =>
      intro i w
      rw [presenceLoop]
      split
      · exact ih _ w
      · exact (emits_send w (hQ _)).trans (ih _ _)

/-- **THE TYPING BRANCH** tells the members it is told of, about the chat it is told of. -/
theorem emits_handleTyping {fmt : Formats} {w : World} {env : Env} {s : UUID}
    {senderName : String} {raw : List UInt8}
    (hQ : ∀ u ∈ namedMembers fmt raw, u ≠ s →
      Q u (.typing senderName s (namedChat fmt raw))) :
    Emits Q w (handleTyping fmt w env s senderName raw) := by
  simp only [handleTyping]
  split
  · exact Emits.refl w
  · exact (emits_typingFanOut _ _ hQ).ofRedis

/-- A presence check sends its answers, and nothing else. -/
theorem emits_handlePresenceCheck {fmt : Formats} {w : World} {env : Env} {s : UUID}
    {raw : List UInt8} (hQ : ∀ f, Q s f) :
    Emits Q w (handlePresenceCheck fmt w env s raw) := by
  rw [handlePresenceCheck]
  split
  · exact Emits.refl w
  · simp only
    split
    · exact emits_presenceLoop hQ _ _ w
    · exact Emits.refl w

/-- A ping sends its answer, and nothing else. -/
theorem emits_handlePing {w : World} {env : Env} {s : UUID} (hQ : ∀ f, Q s f) :
    Emits Q w (handlePing w env s) := by
  rw [handlePing]
  cases w.redis.setOnline env s with
  | none => exact emits_send w (hQ _)
  | some redis =>
      show Emits Q w (World.send { w with redis := redis } s .pong).1
      exact (emits_send _ (hQ _)).ofRedis

/-- An ack sends a read receipt, and nothing else. -/
theorem emits_handleAck {fmt : Formats} {w : World} {env : Env} {s : UUID}
    {raw : List UInt8} (hQ : ∀ u id, Q u (.read id)) :
    Emits Q w (handleAck fmt w env s raw).1 := by
  rw [handleAck]
  cases parseAck fmt raw with
  | error e => exact Emits.refl w
  | ok call =>
      simp only
      rw [runAck]
      split
      · exact Emits.refl w
      · split
        · exact Emits.of_quiet rfl rfl
        · exact (emits_sendOrPublish _ (hQ _ _)).ofDb

/-- Setting `from` and `from_name` and deleting `to` leaves `type` alone. -/
theorem relayMap_type (fmt : Formats) (s : UUID) (senderName : String)
    (es : List (String × Json)) :
    lookup (relayMap fmt s senderName es) "type"
      = lookup (interfaceEntries fmt.float64 [] es) "type" := by
  rw [relayMap]
  rw [lookup_deleteKey_ne (by decide), lookup_setKey_ne _ (by decide),
    lookup_setKey_ne _ (by decide)]

/-- What may be emitted for others: no chat line, or a stored row's. -/
def Honest (fmt : Formats) (db : Db) (s : UUID) (u : UUID) (f : Frame) : Prop :=
  u ≠ s → chatType (f.field fmt "type") → CarriesRow fmt db s f

/-- A frame to oneself deceives nobody. -/
theorem honest_self (fmt : Formats) (db : Db) (s : UUID) (f : Frame) :
    Honest fmt db s s f := fun h => absurd rfl h

/-- **EVERY BRANCH BUT THE RELAY IS HONEST**, and the two that store are the two
    the limiter guards. -/
theorem emits_branch (fmt : Formats) (w : World) (env : Env) (s : UUID)
    (senderName : String) (raw : List UInt8) {kind : Kind} (hk : kind ≠ .webrtc) :
    Emits (fun u f => Honest fmt (branch fmt w env s senderName raw kind).db s u f ∧
        (kind.limited = false → u ≠ s → ¬ chatType (f.field fmt "type")))
      w (branch fmt w env s senderName raw kind) := by
  have hself : ∀ (db : Db) (f : Frame), Honest fmt db s s f ∧
      (kind.limited = false → s ≠ s → ¬ chatType (f.field fmt "type")) :=
    fun db f => ⟨honest_self fmt db s f, fun _ h => absurd rfl h⟩
  have hplain : ∀ (db : Db) (u : UUID) (f : Frame), f.plain = true →
      Honest fmt db s u f ∧
        (kind.limited = false → u ≠ s → ¬ chatType (f.field fmt "type")) :=
    fun db u f h => ⟨fun _ hc => absurd hc (not_chatType_of_plain h),
      fun _ _ => not_chatType_of_plain h⟩
  cases kind with
  | message =>
      refine emits_handleDM (fun f => hself _ f) ?_
      intro m hm hs u ts
      refine ⟨fun _ _ => Or.inl ⟨m, hm, hs, ?_, ?_, ?_⟩, fun h => by cases h⟩
      · rfl
      · rfl
      · rw [hs]; rfl
  | groupMessage =>
      refine emits_handleGroupMessage (fun u msg => hplain _ u _ rfl) ?_
      intro call stored hs hm u
      refine ⟨⟨fun _ _ => Or.inr ⟨stored, hm, hs, ?_, ?_, ?_⟩, fun h => by cases h⟩,
        hplain _ u _ rfl⟩
      · rfl
      · rfl
      · rfl
  | createGroup => exact emits_handleCreateGroup (fun f => hself _ f)
  | addMember => exact emits_handleAddMember (fun f => hself _ f)
  | leaveGroup => exact emits_handleLeaveGroup (fun f => hself _ f)
  | ack => exact emits_handleAck (fun u id => hplain _ u _ rfl)
  | typing => exact emits_handleTyping fun u _ _ => hplain _ u _ rfl
  | presenceCheck => exact emits_handlePresenceCheck (fun f => hself _ f)
  | ping => exact emits_handlePing (fun f => hself _ f)
  | webrtc => exact absurd rfl hk
  | other => exact Emits.refl w

/-- The relay emits its one frame, for its target. -/
theorem newFrames_relay {fmt : Formats} {w : World} {env : Env} {s : UUID}
    {senderName : String} {raw : List UInt8} :
    newFrames w (handleRelay fmt w env s senderName raw) =
      match structEntries raw with
      | none => []
      | some es => match relayTarget fmt es with
        | none => []
        | some target =>
            if Enqueues w.hub target ∨ env.ok .publish = true then
              [(target, .relay (relayMap fmt s senderName es))]
            else [] := by
  have hself : newFrames w w = [] := by simp [newFrames]
  rw [handleRelay]
  cases structEntries raw with
  | none => exact hself
  | some es =>
      simp only
      cases relayTarget fmt es with
      | none => exact hself
      | some target => exact newFrames_sendOrPublish w env target _

/-- Only a limited branch's frames are chat lines, unless a relay forges one. -/
theorem noForgery_of_not_relays {fmt : Formats} {l : Limiter} {w : World} {env : Env}
    {s : UUID} {senderName : String} {raw : List UInt8}
    (h : ¬ RelaysChatType fmt w env s raw) : NoForgery fmt l w env s senderName raw := by
  rw [NoForgery, dispatch]
  cases hk : baseKind raw with
  | none =>
      intro e he
      simp [newFrames] at he
  | some kind =>
      cases hlim : kind.limited with
      | true =>
          have hne : kind ≠ .webrtc := by
            rintro rfl
            cases hlim
          simp only [hlim, if_true]
          cases hall : w.redis.allow l env s with
          | mk redis allowed =>
              cases allowed with
              | false =>
                  simp only [Bool.false_eq_true, if_false]
                  have hemits : Emits (fun u _ => u = s) w
                      (World.send { w with redis := redis } s .rateLimited).1 :=
                    (emits_send _ rfl).ofRedis
                  intro e he hes
                  exact absurd (hemits.newFrames e he) hes
              | true =>
                  simp only [if_true]
                  have hemits := (emits_branch fmt { w with redis := redis } env s
                    senderName raw hne).ofRedis
                  intro e he hes hct
                  refine ⟨⟨⟨kind, hk, hlim⟩, by rw [hall]⟩, ?_⟩
                  exact (hemits.newFrames e he).1 hes hct
      | false =>
          simp only [hlim, Bool.false_eq_true, if_false]
          by_cases hwk : kind = .webrtc
          · rw [hwk]
            intro e he hes hct
            rw [hwk] at hk
            change e ∈ newFrames w (handleRelay fmt w env s senderName raw) at he
            rw [newFrames_relay] at he
            cases hes' : structEntries raw with
            | none =>
                simp only [hes'] at he
                cases he
            | some es =>
                simp only [hes'] at he
                cases ht : relayTarget fmt es with
                | none =>
                    simp only [ht] at he
                    cases he
                | some target =>
                    simp only [ht] at he
                    split at he
                    · rename_i hreach
                      rw [List.mem_singleton.mp he] at hes hct
                      refine absurd ⟨hk, es, hes', target, ht, hes, hreach, ?_⟩ h
                      rw [← relayMap_type fmt s senderName]
                      exact hct
                    · cases he
          · have hemits := emits_branch fmt w env s senderName raw hwk
            intro e he hes hct
            exact absurd hct ((hemits.newFrames e he).2 hlim hes)

/-- A relay of a chat type is a forgery: the limiter is not even asked. -/
theorem not_noForgery_of_relays {fmt : Formats} {l : Limiter} {w : World} {env : Env}
    {s : UUID} {senderName : String} {raw : List UInt8}
    (h : RelaysChatType fmt w env s raw) : ¬ NoForgery fmt l w env s senderName raw := by
  obtain ⟨hk, es, hes, target, ht, hts, hreach, hct⟩ := h
  intro hno
  have hes' : structEntries raw = some es := hes
  have ht' : relayTarget fmt es = some target := ht
  have hd : dispatch fmt l w env s senderName raw
      = handleRelay fmt w env s senderName raw := by
    rw [dispatch]
    rw [hk]
    rfl
  have hin : (target, Frame.relay (relayMap fmt s senderName es)) ∈
      newFrames w (dispatch fmt l w env s senderName raw) := by
    rw [hd, newFrames_relay]
    simp only [hes', ht', if_pos hreach]
    exact List.mem_singleton.mpr rfl
  have hchat : chatType ((Frame.relay (relayMap fmt s senderName es)).field fmt "type") := by
    show chatType (lookup (relayMap fmt s senderName es) "type")
    rw [relayMap_type]
    exact hct
  obtain ⟨⟨⟨kind, hkind, hlim⟩, -⟩, -⟩ := hno _ hin hts hchat
  rw [hk] at hkind
  rw [← Option.some.inj hkind] at hlim
  cases hlim

/-- **CHAT FRAMES ARE FORGED EXACTLY BY THE RELAY**: for every sender, every
    payload, every world and every branch of `Dispatch`. -/
theorem noForgery_iff (fmt : Formats) (l : Limiter) (w : World) (env : Env) (s : UUID)
    (senderName : String) (raw : List UInt8) :
    NoForgery fmt l w env s senderName raw ↔ ¬ RelaysChatType fmt w env s raw :=
  ⟨fun hno hrel => not_noForgery_of_relays hrel hno, noForgery_of_not_relays⟩

/-- An offer for Alice whose map says it is a message from Bob. -/
def forgedOffer : List UInt8 :=
  ascii ("\x7b\"type\":\"message\",\"Type\":\"webrtc_offer\"," ++
    "\"to\":\"00000000-0000-0000-0000-000000000001\"," ++
    "\"from_id\":\"00000000-0000-0000-0000-000000000002\",\"body\":\"pay carol\"\x7d")

theorem forgedOffer_entries : structEntries forgedOffer = some
    [("type", .str "message"), ("Type", .str "webrtc_offer"),
      ("to", .str "00000000-0000-0000-0000-000000000001"),
      ("from_id", .str "00000000-0000-0000-0000-000000000002"), ("body", .str "pay carol")] := by
  have hbytes : forgedOffer = JsonEncode.encode (.obj
      [("type", .str "message"), ("Type", .str "webrtc_offer"),
        ("to", .str "00000000-0000-0000-0000-000000000001"),
        ("from_id", .str "00000000-0000-0000-0000-000000000002"),
        ("body", .str "pay carol")]) := by decide +kernel
  rw [structEntries, hbytes, JsonEncode.parse_encode (n := 1) _ (by decide)]
  refine JsonEncode.Textual.obj fun e he => ?_
  simp only [List.mem_cons, List.not_mem_nil, or_false] at he
  rcases he with rfl | rfl | rfl | rfl | rfl <;> exact JsonEncode.Textual.str _

/-- Alice, connected. -/
def aliceOnline : World :=
  let w := World.start threeUsers oneUser
  { w with hub := w.hub.register 0 }

/-- Carol puts a message "from Bob" into Alice's queue without storing anything and
    without the limiter. -/
theorem relay_forges_message : ¬ ∀ (w : World) (env : Env) (s : UUID)
    (senderName : String) (raw : List UInt8),
    NoForgery plainFormats newLimiter w env s senderName raw := by
  intro hall
  refine not_noForgery_of_relays ⟨?_, _, forgedOffer_entries, ⟨1⟩, ?_, by decide,
    Or.inl (by decide +kernel), by decide +kernel⟩
    (hall aliceOnline (Env.fine ⟨10⟩ ⟨20⟩ 1) ⟨3⟩ "carol" forgedOffer)
  · rw [baseKind, forgedOffer_entries]
    decide +kernel
  · show relayTarget plainFormats _ = some ⟨1⟩
    decide +kernel

end PeerDispatch
