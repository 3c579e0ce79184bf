import PeerChat.HandlerProofs

/-! # The page of history a chat opens with

    `GET /messages` cuts the ascending order after fifty rows, `GetChatHistory` the
    descending one.  The two agree on a chat that fits the page; in a longer one the
    endpoint shows the oldest fifty messages. -/

namespace PeerHistory

open PeerEnv KeyedTable PeerStore PeerHub PeerFrame PeerWorld PeerHandler

/-- The messages of a chat. -/
def messagesOf (db : Db) (chatID : UUID) : List Message :=
  db.messages.rows.filter fun m => m.chatID = chatID

/-- The `k` latest of `msgs`, oldest first. -/
structure LatestPage (k : Nat) (msgs page : List Message) : Prop where
  ascending : page.Pairwise fun m m' => m.createdAt ≤ m'.createdAt
  count : page.length = min k msgs.length
  shown : ∀ m ∈ page, m ∈ msgs
  older : ∀ m ∈ msgs, m ∉ page → ∀ m' ∈ page, m.createdAt < m'.createdAt

/-- **THE ENDPOINT SHOWS THE LATEST MESSAGES**: the page is the latest one, and its ids
    are those of `GetChatHistory(chat, 50, 0)` in reverse. -/
def ShowsLatest (fmt : Formats) (w : World) (env : Env) (myID : UUID) (partnerIDStr : String)
    (db : Db) (chatID : UUID) : Prop :=
  ∃ rows latest, (getMessages fmt w env myID partnerIDStr).2 = .ok rows ∧
    db.getChatHistory env chatID historyLimit 0 = .ok latest ∧
    rows.map (·.message.id) = (latest.map Message.id).reverse ∧
    LatestPage historyLimit (messagesOf db chatID) (rows.map (·.message))

variable {fmt : Formats} {w : World} {env : Env} {myID partnerID chatID : UUID}
  {partnerIDStr : String} {db : Db}

/-- The page of the endpoint. -/
theorem getMessages_page (hparse : fmt.uuidParse partnerIDStr = some partnerID)
    (hchat : w.db.findOrCreateChat env myID partnerID = (db, .ok chatID))
    (hok : env.ok .history = true) :
    ∃ rows, (getMessages fmt w env myID partnerIDStr).2 = .ok rows ∧
      rows.map (·.message)
        = (orderBy Message.createdAt (messagesOf db chatID)).take historyLimit := by
  refine ⟨(db.historyRows chatID).take historyLimit, ?_, ?_⟩
  · simp only [getMessages, hparse, selectHistory, hchat, if_pos hok]
  · rw [List.map_take, historyRows_message]
    rfl

/-- The page of `GetChatHistory`, turned around. -/
theorem getChatHistory_reverse (hok : env.ok .history = true)
    (hdistinct : ((messagesOf db chatID).map Message.createdAt).Nodup) (k : Nat) :
    ∃ latest, db.getChatHistory env chatID k 0 = .ok latest ∧
      latest.reverse = (orderBy Message.createdAt (messagesOf db chatID)).drop
        ((messagesOf db chatID).length - k) := by
  refine ⟨(orderByDesc Message.createdAt (messagesOf db chatID)).take k, ?_, ?_⟩
  · rw [Db.getChatHistory, if_pos hok]
    rfl
  · rw [orderByDesc_eq_reverse hdistinct, List.take_reverse, List.reverse_reverse,
      (orderBy_perm _ _).length_eq]

/-- A whole chat is its latest page. -/
theorem latestPage_of_le {k : Nat} {msgs : List Message} (h : msgs.length ≤ k) :
    LatestPage k msgs (orderBy Message.createdAt msgs) where
  ascending := orderBy_pairwise _ _
  count := by
    rw [(orderBy_perm _ _).length_eq]
    exact (Nat.min_eq_right h).symm
  shown := fun _ hm => mem_orderBy.mp hm
  older := fun _ hm hnot => absurd (mem_orderBy.mpr hm) hnot

/-- A cut after the first `k` rows and one before the last `k` differ where there are
    more. -/
theorem take_ne_drop {α : Type} {l : List α} (hnodup : l.Nodup) {k : Nat} (hk : 0 < k)
    (hlong : k < l.length) : l.take k ≠ l.drop (l.length - k) := by
  intro heq
  have hfirst := congrArg (fun l => l[0]?) heq
  simp only [List.getElem?_take, if_pos hk, List.getElem?_drop, Nat.add_zero] at hfirst
  rw [List.getElem?_eq_getElem (by omega), List.getElem?_eq_getElem (by omega)] at hfirst
  have hindex := (hnodup.getElem_inj_iff).mp (Option.some.inj hfirst)
  omega

/-- Of a longer chat the endpoint shows other messages. -/
theorem not_showsLatest_of_lt (hparse : fmt.uuidParse partnerIDStr = some partnerID)
    (hchat : w.db.findOrCreateChat env myID partnerID = (db, .ok chatID))
    (hok : env.ok .history = true)
    (hdistinct : ((messagesOf db chatID).map Message.createdAt).Nodup)
    (hlong : historyLimit < (messagesOf db chatID).length) :
    ¬ ShowsLatest fmt w env myID partnerIDStr db chatID := by
  rintro ⟨rows, latest, hrows, hlatest, hids, -⟩
  obtain ⟨rows', hrows', hpage⟩ := getMessages_page hparse hchat hok
  obtain ⟨latest', hlatest', hreverse⟩ := getChatHistory_reverse hok hdistinct historyLimit
  cases hrows.symm.trans hrows'
  cases hlatest.symm.trans hlatest'
  have hlength : (orderBy Message.createdAt (messagesOf db chatID)).length
      = (messagesOf db chatID).length := (orderBy_perm _ _).length_eq
  have hnodup : ((orderBy Message.createdAt (messagesOf db chatID)).map Message.id).Nodup := by
    refine (((orderBy_perm _ _).map _).nodup_iff).mpr ?_
    exact (List.filter_sublist.map _).nodup db.messages.unique
  refine take_ne_drop hnodup (k := historyLimit) (by decide) (by simpa [hlength] using hlong) ?_
  rw [← List.map_take, ← hpage, ← List.map_drop, List.length_map, hlength, ← hreverse,
    List.map_map, List.map_reverse]
  exact hids

/-- **THE LATEST MESSAGES, AS LONG AS THE CHAT FITS THE PAGE.** -/
theorem history_latest_iff (hparse : fmt.uuidParse partnerIDStr = some partnerID)
    (hchat : w.db.findOrCreateChat env myID partnerID = (db, .ok chatID))
    (hok : env.ok .history = true)
    (hdistinct : ((messagesOf db chatID).map Message.createdAt).Nodup) :
    ShowsLatest fmt w env myID partnerIDStr db chatID ↔
      (messagesOf db chatID).length ≤ historyLimit := by
  constructor
  · intro hshows
    by_contra hlong
    exact not_showsLatest_of_lt hparse hchat hok hdistinct (Nat.lt_of_not_le hlong) hshows
  · intro hfits
    obtain ⟨rows, hrows, hpage⟩ := getMessages_page hparse hchat hok
    obtain ⟨latest, hlatest, hreverse⟩ := getChatHistory_reverse hok hdistinct historyLimit
    have hlength : (orderBy Message.createdAt (messagesOf db chatID)).length
        = (messagesOf db chatID).length := (orderBy_perm _ _).length_eq
    rw [List.take_of_length_le (by rw [hlength]; exact hfits)] at hpage
    rw [Nat.sub_eq_zero_of_le hfits, List.drop_zero] at hreverse
    refine ⟨rows, latest, hrows, hlatest, ?_, ?_⟩
    · rw [← List.map_reverse, hreverse, ← hpage, List.map_map]
      rfl
    · rw [hpage]
      exact latestPage_of_le hfits

/-! ## A chat of alice and bob -/

/-- Alice's `i`-th message in chat 9. -/
def aliceSays (i : Nat) : Message := ⟨⟨BitVec.ofNat 128 i⟩, ⟨9⟩, ⟨1⟩, "hi", .sent, i⟩

/-- Chat 9, in which alice has written `n` messages, a tick apart. -/
def chatOf (n : Nat) (h : n ≤ 2 ^ 128) : Db :=
  { threeUsers with
    chats := ⟨[⟨9⟩], by decide⟩
    chatMembers := ⟨[⟨⟨9⟩, ⟨1⟩⟩, ⟨⟨9⟩, ⟨2⟩⟩], by decide⟩
    messages := ⟨(List.range n).map aliceSays, by
      rw [List.map_map]
      refine List.Nodup.map_on ?_ List.nodup_range
      intro i hi j hj heq
      have hbits := congrArg (fun u : UUID => u.bits.toNat) heq
      simp only [Function.comp_apply, aliceSays, BitVec.toNat_ofNat] at hbits
      rw [List.mem_range] at hi hj
      rwa [Nat.mod_eq_of_lt (by omega), Nat.mod_eq_of_lt (by omega)] at hbits⟩
    member_chat := by decide
    member_user := by decide
    message_chat := by
      intro m hm
      obtain ⟨i, -, rfl⟩ := List.mem_map.mp hm
      exact List.mem_singleton_self _
    message_sender := by
      intro m hm
      obtain ⟨i, -, rfl⟩ := List.mem_map.mp hm
      exact List.mem_cons_self }

theorem messagesOf_chatOf (n : Nat) (h : n ≤ 2 ^ 128) :
    messagesOf (chatOf n h) ⟨9⟩ = (List.range n).map aliceSays := by
  refine List.filter_eq_self.mpr ?_
  intro m hm
  obtain ⟨i, -, rfl⟩ := List.mem_map.mp hm
  rfl

theorem chatOf_distinct (n : Nat) (h : n ≤ 2 ^ 128) :
    ((messagesOf (chatOf n h) ⟨9⟩).map Message.createdAt).Nodup := by
  rw [messagesOf_chatOf, List.map_map]
  exact List.Nodup.map_on (fun _ _ _ _ heq => heq) List.nodup_range

/-- Bob's id, as the web client puts it into the query. -/
def bobQuery : String := "00000000-0000-0000-0000-000000000002"

theorem parse_bobQuery : plainFormats.uuidParse bobQuery = some ⟨2⟩ := by
  decide +kernel

/-- Two messages fit the page. -/
theorem history_latest_two :
    ShowsLatest plainFormats (World.start (chatOf 2 (by decide)) oneUser)
      (Env.fine ⟨10⟩ ⟨20⟩ 99) ⟨1⟩ bobQuery (chatOf 2 (by decide)) ⟨9⟩ :=
  (history_latest_iff parse_bobQuery rfl rfl (chatOf_distinct 2 (by decide))).mpr
    (by rw [messagesOf_chatOf]; decide)

/-- Of fifty-one messages the endpoint returns the first fifty. -/
theorem long_chat_shows_oldest : ¬ ∀ (w : World) (env : Env) (db : Db) (chatID : UUID),
    w.db.findOrCreateChat env ⟨1⟩ ⟨2⟩ = (db, .ok chatID) → env.ok .history = true →
    ((messagesOf db chatID).map Message.createdAt).Nodup →
    ShowsLatest plainFormats w env ⟨1⟩ bobQuery db chatID := by
  intro hall
  have hchat : (World.start (chatOf 51 (by decide)) oneUser).db.findOrCreateChat
      (Env.fine ⟨10⟩ ⟨20⟩ 99) ⟨1⟩ ⟨2⟩ = (chatOf 51 (by decide), .ok ⟨9⟩) := rfl
  have hdistinct := chatOf_distinct 51 (by decide)
  refine not_showsLatest_of_lt parse_bobQuery hchat rfl hdistinct ?_ (hall _ _ _ _ hchat rfl hdistinct)
  rw [messagesOf_chatOf]
  decide

end PeerHistory
