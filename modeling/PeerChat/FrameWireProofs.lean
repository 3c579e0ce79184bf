import PeerChat.AuthProofs
import PeerChat.DispatchProofs
import PeerChat.GoMarshalProofs
import PeerChat.WebFrameProofs

/-! # Frames on the wire

    A frame is the data of a Go map, and `json.Marshal` is what makes bytes of it;
    the browser parses the bytes and reads keys.  Between the two the order of the
    keys is lost, `<` and its like are escaped, and a relayed map has been through
    the decoder before: whatever its sender nested, and every spelling of a key.

    Nothing that is read is lost on the way (`readBack_of_wired`). -/

namespace PeerFrame

open PeerEnv JsonScan JsonDecode JsonEncode JsonShape GoMarshal PeerDispatch PeerWeb

/-- The bytes of a frame. -/
def frameBytes (fmt : Formats) (f : Frame) : List UInt8 := marshal (.obj (f.fields fmt))

/-- A map that can be written and read back. -/
structure Wired (m : JsonMap) : Prop where
  keyed : Keyed m
  shaped : Shaped maxNestingDepth (.obj m)

/-! ## Relayed maps -/

/-- A relay tells its sender, whatever the payload said. -/
theorem relayMap_from (fmt : Formats) (senderID : UUID) (senderName : String)
    (es : List (String × Json)) :
    lookup (relayMap fmt senderID senderName es) "from" = some (.str (fmt.uuidString senderID)) ∧
      lookup (relayMap fmt senderID senderName es) "from_name" = some (.str senderName) := by
  rw [relayMap]
  rw [lookup_deleteKey_ne (by decide), lookup_deleteKey_ne (by decide)]
  constructor
  · rw [lookup_setKey_ne _ (by decide), lookup_setKey_self]
  · rw [lookup_setKey_self]

variable {fmt : Formats}

/-- **A RELAYED MAP CAN BE READ BACK**, however deep its sender has nested it. -/
theorem wired_relay (hfloat : KeepsNumbers fmt.float64) {payload : List UInt8}
    {es : List (String × Json)} (h : structEntries payload = some es) (senderID : UUID)
    (senderName : String) : Wired (relayMap fmt senderID senderName es) := by
  have hshaped : ∃ k, maxNestingDepth = k + 1 ∧ ∀ e ∈ es, Shaped k e.2 := by
    rw [structEntries] at h
    split at h
    · rename_i entries hparse
      cases h
      exact (shaped_of_parse hparse).entries
    · cases h
      exact ⟨9999, rfl, fun e he => absurd he List.not_mem_nil⟩
    · cases h
  obtain ⟨k, hk, hes⟩ := hshaped
  have hkeyed : Keyed (interfaceEntries fmt.float64 [] es) :=
    keyed_interfaceEntries es [] List.nodup_nil
  refine ⟨keyed_filter (keyed_setKey (keyed_setKey hkeyed _ _) _ _) _, ?_⟩
  rw [hk]
  refine .obj fun e he => ?_
  -- an entry is the server's, or was decoded
  rcases mem_setKey (List.mem_filter.mp he).1 with he | rfl
  · rcases mem_setKey he with he | rfl
    · rcases mem_interfaceEntries es [] he with hnil | ⟨e₀, he₀, rfl⟩
      · exact absurd hnil List.not_mem_nil
      · exact shaped_interfaceValue hfloat (hes e₀ he₀)
    · exact .str _
  · exact .str _

/-- The frames the server makes up hold texts only. -/
theorem wired_of_texts {m : JsonMap} (hkeyed : Keyed m) (h : Texts m) : Wired m := by
  refine ⟨hkeyed, (Shaped.obj (n := 0) fun e he => ?_).mono (by decide)⟩
  obtain ⟨s, hs⟩ := h e he
  rw [hs]
  exact .str s

/-- A frame the server builds is a map of texts, every key once. -/
theorem texts_frame {f : Frame} (h : ∀ raw, f ≠ .relay raw) :
    Keyed (f.fields fmt) ∧ Texts (f.fields fmt) := by
  cases f with
  | relay raw => exact absurd rfl (h raw)
  | _ =>
      refine ⟨by simp [Keyed, Frame.fields], ?_⟩
      simp [Texts, Frame.fields]

/-- So it can be written and read back. -/
theorem wired_frame {f : Frame} (h : ∀ raw, f ≠ .relay raw) : Wired (f.fields fmt) :=
  wired_of_texts (texts_frame h).1 (texts_frame h).2

/-! ## What the browser reads -/

section Reading

variable {m : JsonMap}

/-- Sorting the keys changes no text that is read. -/
theorem text_canon (h : Keyed m) (k : String) : text (canonMap m) k = text m k := by
  rw [text, text, lookup_canon h]
  cases lookup m k with
  | none => rfl
  | some v => cases v <;> rfl

/-- Nor the chat of a typing frame. -/
theorem typingChat_canon (h : Keyed m) : typingChat (canonMap m) = typingChat m := by
  rw [typingChat, typingChat, lookup_canon h, text_canon h]
  cases lookup m "chat_id" with
  | none => rfl
  | some v => cases v <;> rfl

/-- **`onmessage` READS THE PARSED TEXT** as it would the map. -/
theorem incoming_canon (h : Keyed m) : incoming (canonMap m) = incoming m := by
  simp only [incoming, text_canon h, typingChat_canon h, lookup_canon h]
  cases lookup m "status" with
  | none => rfl
  | some v => cases v <;> rfl

end Reading

/-- What is read of the bytes of a frame: one object, every key as in the map, and so what
    the browser makes of it. -/
structure ReadBack (fmt : Formats) (f : Frame) (m : JsonMap) : Prop where
  parsed : parse (frameBytes fmt f) = some (.obj m)
  answers : ∀ k, lookup m k = (lookup (f.fields fmt) k).map canon
  incoming : incoming m = received fmt f

/-- **WHAT IS WRITTEN IS READ BACK**, key by key. -/
theorem readBack_of_wired {f : Frame} (h : Wired (f.fields fmt)) :
    ReadBack fmt f (canonMap (f.fields fmt)) where
  parsed := parse_marshal h.shaped (le_refl _)
  answers := lookup_canon h.keyed
  incoming := incoming_canon h.keyed

/-! ## Ids -/

theorem hexDigits_length (k n : Nat) : (hexDigits k n).length = k := by
  induction k generalizing n with
  | zero => rfl
  | succ k ih => rw [hexDigits, List.length_append, ih, List.length_singleton]

/-- Different digits are written differently. -/
theorem digitChar_inj {a b : Nat} (ha : a < 16) (hb : b < 16)
    (h : Nat.digitChar a = Nat.digitChar b) : a = b := by
  have hall : ∀ x y : Fin 16, Nat.digitChar x.val = Nat.digitChar y.val → x = y := by decide
  exact congrArg Fin.val (hall ⟨a, ha⟩ ⟨b, hb⟩ h)

/-- The digits of a number determine it, as far as they go. -/
theorem hexDigits_inj {k n m : Nat} (h : hexDigits k n = hexDigits k m) :
    n % 16 ^ k = m % 16 ^ k := by
  induction k generalizing n m with
  | zero => rw [pow_zero, Nat.mod_one, Nat.mod_one]
  | succ k ih =>
      rw [hexDigits, hexDigits] at h
      obtain ⟨hinit, hlast⟩ := List.append_inj h (by rw [hexDigits_length, hexDigits_length])
      have hdigit : n % 16 = m % 16 :=
        digitChar_inj (Nat.mod_lt _ (by decide)) (Nat.mod_lt _ (by decide))
          (List.singleton_inj.mp hlast)
      rw [pow_succ', Nat.mod_mul, Nat.mod_mul, ih hinit, hdigit]

/-- Different ids are written differently. -/
theorem canonicalString_injective : Function.Injective canonicalString := by
  intro u v h
  rw [canonicalString, canonicalString] at h
  have hlist := String.ofList_injective h
  simp only [List.append_assoc, List.cons_append] at hlist
  have hlength : ∀ k n m, (hexDigits k n).length = (hexDigits k m).length := by
    intro k n m
    rw [hexDigits_length, hexDigits_length]
  obtain ⟨h₁, h⟩ := List.append_inj hlist (hlength 8 _ _)
  obtain ⟨h₂, h⟩ := List.append_inj (List.cons.inj h).2 (hlength 4 _ _)
  obtain ⟨h₃, h⟩ := List.append_inj (List.cons.inj h).2 (hlength 4 _ _)
  obtain ⟨h₄, h⟩ := List.append_inj (List.cons.inj h).2 (hlength 4 _ _)
  have h₅ := (List.cons.inj h).2
  -- five groups of digits, with nothing above them
  have hu := u.bits.isLt
  have hv := v.bits.isLt
  have hbits : u.bits.toNat = v.bits.toNat := by
    have hgroup₁ := hexDigits_inj h₁
    have hgroup₂ := hexDigits_inj h₂
    have hgroup₃ := hexDigits_inj h₃
    have hgroup₄ := hexDigits_inj h₄
    have hgroup₅ := hexDigits_inj h₅
    omega
  obtain ⟨ub⟩ := u
  obtain ⟨vb⟩ := v
  exact congrArg UUID.mk (BitVec.eq_of_toNat_eq hbits)
end PeerFrame

/-! ## Responses -/

namespace PeerAuth

open JsonScan JsonDecode GoMarshal PeerFrame

/-- The map `c.JSON` is given. -/
def answerFields (fmt : Formats) : Answer → JsonMap
  | .error text => [("error", .str text)]
  | .session token userID username =>
      [("token", .str token), ("user_id", .str (fmt.uuidString userID)),
        ("username", .str username)]

/-- The body of a response. -/
def answerBytes (fmt : Formats) (a : Answer) : List UInt8 := marshal (.obj (answerFields fmt a))

/-- An answer of the API is a map of texts. -/
theorem texts_answer (fmt : Formats) (a : Answer) :
    Keyed (answerFields fmt a) ∧ Texts (answerFields fmt a) := by
  cases a with
  | error text => exact ⟨by simp [answerFields, Keyed], by simp [answerFields, Texts]⟩
  | session token userID username =>
      exact ⟨by simp [answerFields, Keyed], by simp [answerFields, Texts]⟩

/-- So the client reads what the handler wrote. -/
theorem parse_answer (fmt : Formats) (a : Answer) :
    parse (answerBytes fmt a) = some (.obj (canonMap (answerFields fmt a))) :=
  parse_marshal (wired_of_texts (texts_answer fmt a).1 (texts_answer fmt a).2).shaped (le_refl _)

end PeerAuth
