import PeerChat.DispatchProofs
import PeerChat.WebClientProofs

/-! # Typing, from one client to the other

    `handleTyping` says to whom the user types; the server reads the members to tell and
    the chat to name, and the other client sets the entry of that chat.  The three do not
    meet: of the members and the chat the first says nothing. -/

namespace PeerWeb

open JsonScan JsonDecode JsRecord KeyedTable PeerEnv PeerFrame PeerHub PeerRedis PeerWorld
open PeerDispatch

/-- The server handles the frames a client has written. -/
def dispatchAll (fmt : Formats) (l : Limiter) (w : World) (env : Env) (senderID : UUID)
    (senderName : String) (fs : List OutFrame) : World :=
  fs.foldl (fun w f => dispatch fmt l w env senderID senderName f.bytes) w

/-- `A` types in her chat with `B`, who has his chat with `A` on the screen. -/
structure TypesTo (fmt : Formats) (w : World) (env : Env) (A B : UUID) (a b : Client) :
    Prop where
  distinct : A ≠ B
  connected : Enqueues w.hub A ∧ Enqueues w.hub B
  redis : env.ok .setTyping = true
  writing : a.hook.refOpen = true ∧ ∃ v ∈ a.window, fmt.uuidParse v.partnerId = some B
  reading : ∃ v ∈ b.window, v.partnerId = fmt.uuidString A

/-- **`B` SEES THAT `A` IS TYPING**: what `handleTyping` writes makes the server enqueue one
    frame, for `B`, whose client then sets the entry its window reads. -/
def TypingShows (fmt : Formats) (l : Limiter) (w : World) (env : Env) (A B : UUID)
    (senderName body : String) (a b : Client) : Prop :=
  ∃ f i, newFrames w (dispatchAll fmt l w env A senderName (a.writes (.input body))) = [(B, f)] ∧
    received fmt f = some i ∧
    ∃ v ∈ b.window, (b.store.onmessage i).typing.get? v.partnerId = some true

variable {fmt : Formats} {l : Limiter} {w : World} {env : Env} {A B : UUID}
  {senderName body : String} {a b : Client}

/-! ## What a typing payload makes the server send -/

theorem dispatch_typing {raw : List UInt8} (hkind : baseKind raw = some .typing) :
    dispatch fmt l w env A senderName raw = handleTyping fmt w env A senderName raw := by
  rw [dispatch, hkind]
  rfl

/-- Whoever gets a frame is named in the payload, and so is the chat whose entry he sets. -/
theorem named_of_newFrames {raw : List UInt8} (hkind : baseKind raw = some .typing)
    {u : UUID} {f : Frame} (h : (u, f) ∈ newFrames w (dispatch fmt l w env A senderName raw)) :
    u ∈ namedMembers fmt raw ∧ u ≠ A ∧
      received fmt f = some (.typing (fmt.uuidString (namedChat fmt raw))) := by
  rw [dispatch_typing hkind] at h
  have hemits : Emits (fun u f => u ∈ namedMembers fmt raw ∧ u ≠ A ∧
      received fmt f = some (.typing (fmt.uuidString (namedChat fmt raw)))) w
      (handleTyping fmt w env A senderName raw) :=
    emits_handleTyping fun u hu hne => ⟨hu, hne, received_typing fmt _ _ _⟩
  exact hemits.newFrames _ h

/-! ## What the client's payload names -/

theorem structEntries_typing (dest : String) : structEntries (OutFrame.typing dest).bytes
    = some [("type", .str "typing"), ("to", .str dest)] := by
  rw [structEntries, parse_bytes]
  rfl

theorem baseKind_typing (dest : String) :
    baseKind (OutFrame.typing dest).bytes = some .typing := by
  rw [baseKind, structEntries_typing]
  simp [stringField, keyMatches, foldRune, decodeString, kindOf]

/-- Nobody. -/
theorem namedMembers_typing (fmt : Formats) (dest : String) :
    namedMembers fmt (OutFrame.typing dest).bytes = [] := by
  rw [namedMembers, structEntries_typing]
  simp [stringsField, keyMatches, foldRune]

/-- So the server sends nothing, to anybody. -/
theorem newFrames_typing (dest : String) :
    newFrames w (dispatch fmt l w env A senderName (OutFrame.typing dest).bytes) = [] := by
  rw [List.eq_nil_iff_forall_not_mem]
  intro e he
  have hnamed := (named_of_newFrames (baseKind_typing dest) he).1
  rw [namedMembers_typing] at hnamed
  exact List.not_mem_nil hnamed

/-- `handleTyping` writes one frame, or none. -/
theorem writes_input (a : Client) (body : String) : a.writes (.input body) = [] ∨
    ∃ dest, a.writes (.input body) = [.typing dest] := by
  rw [Client.writes]
  split
  · cases a.window with
    | none => exact Or.inl rfl
    | some v => exact Or.inr ⟨v.partnerId, rfl⟩
  · exact Or.inl rfl

theorem newFrames_input : newFrames w
    (dispatchAll fmt l w env A senderName (a.writes (.input body))) = [] := by
  rcases writes_input a body with hnone | ⟨dest, hone⟩
  · rw [hnone, dispatchAll, List.foldl_nil]
    simp [newFrames]
  · rw [hone, dispatchAll, List.foldl_cons, List.foldl_nil]
    exact newFrames_typing dest

/-- **TYPING SHOWS NOWHERE**, whoever types to whom. -/
theorem typing_never_shows : ¬ TypingShows fmt l w env A B senderName body a b := by
  rintro ⟨f, i, hframes, -⟩
  rw [newFrames_input] at hframes
  exact List.cons_ne_nil _ _ hframes.symm

/-! ## Alice types to bob -/

/-- Both are connected. -/
def bothOnline : World :=
  let w := World.start PeerStore.threeUsers fun c => if c = 0 then (⟨1⟩, "alice") else (⟨2⟩, "bob")
  { w with hub := (w.hub.register 0).register 1 }

/-- A browser with the chat with this user on the screen. -/
def showing (me other : String) : List ClientEvent :=
  [.login ⟨"t", me, me⟩, .opened 0, .openChat other]

theorem showing_runs (me other : String) : ∃ c,
    Client.start.run sampleTime (showing me other) = some c ∧ c.hook.refOpen = true ∧
      c.window = some ⟨other, "", []⟩ := ⟨_, rfl, rfl, rfl⟩

/-- Everything the typing needs is there, and bob is told nothing. -/
theorem typing_lost : ∃ a b,
    Client.start.run sampleTime (showing "alice" "00000000-0000-0000-0000-000000000002")
      = some a ∧
    Client.start.run sampleTime (showing "bob" "00000000-0000-0000-0000-000000000001")
      = some b ∧
    TypesTo plainFormats bothOnline (Env.fine ⟨10⟩ ⟨20⟩ 1) ⟨1⟩ ⟨2⟩ a b ∧
    ¬ TypingShows plainFormats newLimiter bothOnline (Env.fine ⟨10⟩ ⟨20⟩ 1) ⟨1⟩ ⟨2⟩ "alice" "h"
      a b := by
  obtain ⟨a, harun, haopen, hawindow⟩ :=
    showing_runs "alice" "00000000-0000-0000-0000-000000000002"
  obtain ⟨b, hbrun, -, hbwindow⟩ := showing_runs "bob" "00000000-0000-0000-0000-000000000001"
  refine ⟨a, b, harun, hbrun, ?_, ?_⟩
  · exact {
      distinct := by decide
      connected := by decide
      redis := rfl
      writing := ⟨haopen, _, hawindow, by decide⟩
      reading := ⟨_, hbwindow, by decide⟩ }
  · rintro ⟨f, i, hframes, -⟩
    rw [newFrames_input] at hframes
    exact List.cons_ne_nil _ _ hframes.symm

end PeerWeb
