import PeerChat.FrameWireProofs
import PeerChat.SystemSessionProofs

/-! # Every frame of the system can be read

    Whatever is on its way in a state the system reaches was made up by the server or
    is a payload that was relayed: its bytes are one JSON text, and every key reads as
    in the map behind it (`frames_read_back`). -/

namespace PeerSystem

open PeerEnv JsonDecode GoMarshal PeerFrame PeerHub PeerRouter PeerStore PeerCluster PeerAuth
open Transition

/-- A frame that is attributed can be read back. -/
theorem wired_of_attributed {fmt : Formats} (hfloat : KeepsNumbers fmt.float64) {db : Db}
    {f : Frame} (h : Attributed fmt db f) : Wired (f.fields fmt) := by
  cases f with
  | relay raw =>
      obtain ⟨id, name, payload, es, -, hes, rfl⟩ := h
      exact wired_relay hfloat hes id name
  | _ => exact wired_frame (fun raw heq => by cases heq)

-- ── Dave offers erin a call ───────────────────────────────────────────────────

/-- What it nests has words of every kind, a `<` and a key in no order. -/
def offer : List UInt8 :=
  JsonScan.ascii ("\x7b\"type\":\"webrtc_offer\",\"to\":\"00000000-0000-0000-0000-000000000008\"," ++
    "\"sdp\":\x7b\"b\":[1,null,\"<\"],\"a\":true\x7d\x7d")

/-- Erin's queue holds the relayed map. -/
def offered (s : System Unit) : Bool :=
  (s.hub ()).log.any fun e => match e with
    | (1, .relay raw) => (lookup raw "sdp").isSome && (lookup raw "to").isNone
    | _ => false

/-- Dave's offer reaches erin. -/
theorem dave_offers : ∃ s, Reach (step twoSetup daveAndErin) (Unforged twoSetup)
    (start threeUsers daveAndErin) s ∧ offered s = true :=
  exists_reach_of_replay unforged_of_holds _
    (daveWrites.take 16 ++ [.payload () 0 PeerServer.fineEnv offer]) offered (by decide +kernel)

theorem plainFormats_keepsNumbers : KeepsNumbers plainFormats.float64 := by
  intro lit lit' h heq
  cases heq
  exact h

/-- **NOTHING IS LOST ON THE WIRE**: in every state, of every frame that was ever enqueued,
    published or handed to a subscription. -/
theorem frames_read_back {σ ι : Type} [DecidableEq ι] {su : Setup σ}
    {who : ι → ClientId → UUID × String} {db₀ : Db} {s : System ι}
    (hjwt : su.jwt.Lawful su.handler.lib) (hfloat : KeepsNumbers su.fmt.float64)
    (hr : Reach (step su who) (Unforged su) (start db₀ who) s) (i : ι) :
    (∀ e ∈ (s.hub i).log, ∃ m, ReadBack su.fmt e.2 m) ∧
      (∀ k, ∀ f ∈ (s.pubsub k).inbox, ∃ m, ReadBack su.fmt f m) ∧
      ∀ e ∈ s.published, ∃ m, ReadBack su.fmt e.2 m := by
  have hairs := (sound_reach hjwt hr).airs i
  have hread : ∀ {u f}, Told su.fmt (fun _ _ => True) s.db u f → ∃ m, ReadBack su.fmt f m :=
    fun htold => ⟨_, readBack_of_wired (wired_of_attributed hfloat htold.attributed)⟩
  exact ⟨fun e he => hread (hairs.log e he), fun k f hf => hread (hairs.heard k f hf),
    fun e he => hread (hairs.published e he)⟩

/-- Every frame of Dave's run is read back. -/
theorem frames_read_back_dave : ∃ s, Reach (step twoSetup daveAndErin) (Unforged twoSetup)
    (start threeUsers daveAndErin) s ∧ offered s = true ∧
      (∀ e ∈ (s.hub ()).log, ∃ m, ReadBack plainFormats e.2 m) ∧
      (∀ k, ∀ f ∈ (s.pubsub k).inbox, ∃ m, ReadBack plainFormats f m) ∧
      ∀ e ∈ s.published, ∃ m, ReadBack plainFormats e.2 m := by
  obtain ⟨s, hs, hoffered⟩ := dave_offers
  exact ⟨s, hs, hoffered, frames_read_back twoSetup_lawful plainFormats_keepsNumbers hs ()⟩

end PeerSystem
