import PeerChat.RedisProofs
import PeerChat.KeyedTableProofs
import PeerChat.TransitionProofs

/-! # Presence over timed runs

    All connections of a user, on whichever instance, share the one key
    `presence:<user>`: each sets it when it connects and at every ping, and each
    deletes it when it disconnects.  The key knows no owner, so a disconnect also
    takes down what the user's other connections have set. -/

namespace PeerPresence

open PeerEnv PeerRedis KeyedTable Transition

/-- A connection that is up: whose it is, and when it last set its user online. -/
structure Conn where
  id : Nat
  userID : UUID
  last : Nat
  deriving DecidableEq

/-- The connection after a ping. -/
def Conn.pinged (c : Conn) (now : Nat) : Conn := { c with last := now }

@[simp] theorem pinged_id (c : Conn) (now : Nat) : (c.pinged now).id = c.id := rfl

/-- Has it set its user online within the TTL before `now`? -/
def Conn.fresh (c : Conn) (now : Nat) : Prop := now < c.last + presenceTTL

instance (c : Conn) (now : Nat) : Decidable (c.fresh now) :=
  inferInstanceAs (Decidable (_ < _))

/-- The keys, the connections that are up, and the time of the last call. -/
structure State where
  redis : Redis
  conns : Table Conn Nat Conn.id
  now : Nat

def start (redis : Redis) (now : Nat) : State := ⟨redis, KeyedTable.empty, now⟩

inductive Act where
  /-- `onConnect` sets the user online. -/
  | connect (id : Nat) (userID : UUID) (env : Env)
  /-- A heartbeat does it again. -/
  | ping (id : Nat) (env : Env)
  /-- `onDisconnect` sets the user offline. -/
  | disconnect (id : Nat) (env : Env)

def Act.env : Act → Env
  | .connect _ _ env => env
  | .ping _ env => env
  | .disconnect _ env => env

/-- The connection `id`, if it is up. -/
def State.conn (s : State) (id : Nat) : Option Conn := s.conns.rows.find? fun c => c.id = id

/-- One call; time does not go back. -/
def step (s : State) (a : Act) : Option State :=
  if s.now ≤ a.env.now then
    match a with
    | .connect id userID env =>
        (s.conns.insert ⟨id, userID, env.now⟩).map fun conns =>
          ⟨(s.redis.setOnline env userID).getD s.redis, conns, env.now⟩
    | .ping id env =>
        (s.conn id).map fun c =>
          ⟨(s.redis.setOnline env c.userID).getD s.redis,
            s.conns.update id (fun c => c.pinged env.now)
              (fun c => pinged_id c env.now), env.now⟩
    | .disconnect id env =>
        (s.conn id).map fun c =>
          ⟨(s.redis.setOffline env c.userID).getD s.redis,
            s.conns.keep fun c => c.id ≠ id, env.now⟩
  else none

/-- **PRESENCE IS RIGHT**: from the last call on, whoever asks is told that a user
    is online iff some connection that is up set the user online within the TTL. -/
def Agrees (s : State) : Prop :=
  ∀ env i userID, env.ok (.exists_ i) = true → s.now ≤ env.now →
    (s.redis.isOnline env i userID = true ↔
      ∃ c ∈ s.conns.rows, c.userID = userID ∧ c.fresh env.now)

/-- Redis calls succeed. -/
def RedisUp (a : Act) : Prop := a.env.ok .setOnline = true ∧ a.env.ok .setOffline = true

/-- The condition on a step: when a connection disconnects, no other connection
    of its user has set the user online within the TTL. -/
def LastOut (s : State) : Act → Prop
  | .disconnect id env => ∀ c ∈ s.conn id, ∀ d ∈ s.conns.rows,
      d.userID = c.userID → d.id ≠ id → ¬ d.fresh env.now
  | _ => True

/-- Both. -/
def Sound (s : State) (a : Act) : Prop := RedisUp a ∧ LastOut s a

instance (s : State) (a : Act) : Decidable (LastOut s a) :=
  match a with
  | .disconnect _ _ => inferInstanceAs (Decidable (∀ c ∈ s.conn _, ∀ d ∈ s.conns.rows, _))
  | .connect _ _ _ | .ping _ _ => isTrue trivial

instance (a : Act) : Decidable (RedisUp a) := inferInstanceAs (Decidable (_ ∧ _))

instance (s : State) (a : Act) : Decidable (Sound s a) := inferInstanceAs (Decidable (_ ∧ _))

/-! ## The step, case by case -/

/-- `SetOnline` writes the key of its user, to expire after the TTL. -/
theorem setOnline_presence {r : Redis} {env : Env} (u : UUID) (hok : env.ok .setOnline = true) :
    ((r.setOnline env u).getD r).presence
      = Function.update r.presence u (some ⟨"online", some (env.now + presenceTTL)⟩) := by
  rw [Redis.setOnline, if_pos hok]
  rfl

/-- `SetOffline` deletes the key of its user. -/
theorem setOffline_presence {r : Redis} {env : Env} (u : UUID)
    (hok : env.ok .setOffline = true) :
    ((r.setOffline env u).getD r).presence = Function.update r.presence u none := by
  rw [Redis.setOffline, if_pos hok]
  rfl

/-- Which keys and connections a step leaves, when Redis is up. -/
inductive Stepped (s : State) : Act → State → Prop where
  | connect {t : State} (id : Nat) (u : UUID) (env : Env) (htime : s.now ≤ env.now)
      (hrows : t.conns.rows = s.conns.rows ++ [⟨id, u, env.now⟩]) (hnow : t.now = env.now)
      (hkey : t.redis.presence
        = Function.update s.redis.presence u (some ⟨"online", some (env.now + presenceTTL)⟩)) :
      Stepped s (.connect id u env) t
  | ping {t : State} (c : Conn) (env : Env) (htime : s.now ≤ env.now) (hc : c ∈ s.conns.rows)
      (hrows : ∀ d, d ∈ t.conns.rows ↔
        d = c.pinged env.now ∨ (d ∈ s.conns.rows ∧ d.id ≠ c.id))
      (hnow : t.now = env.now)
      (hkey : t.redis.presence = Function.update s.redis.presence c.userID
        (some ⟨"online", some (env.now + presenceTTL)⟩)) : Stepped s (.ping c.id env) t
  | disconnect {t : State} (c : Conn) (env : Env) (htime : s.now ≤ env.now)
      (hfind : s.conn c.id = some c)
      (hrows : ∀ d, d ∈ t.conns.rows ↔ d ∈ s.conns.rows ∧ d.id ≠ c.id) (hnow : t.now = env.now)
      (hkey : t.redis.presence = Function.update s.redis.presence c.userID none) :
      Stepped s (.disconnect c.id env) t

/-- A connection that is looked up is one of the list. -/
theorem conn_mem {s : State} {id : Nat} {c : Conn} (h : s.conn id = some c) :
    c ∈ s.conns.rows ∧ c.id = id := by
  refine ⟨List.mem_of_find?_eq_some h, ?_⟩
  simpa using List.find?_some h

/-- **WHAT A STEP DOES** while Redis is up, action by action. -/
theorem step_cases {s t : State} {a : Act} (hup : RedisUp a) (h : step s a = some t) :
    Stepped s a t := by
  simp only [step] at h
  split at h
  · rename_i htime
    cases a with
    | connect id u env =>
        obtain ⟨conns, hins, rfl⟩ := Option.map_eq_some_iff.mp h
        exact .connect id u env htime (insert_eq_some hins).2 rfl
          (setOnline_presence u hup.1)
    | ping id env =>
        obtain ⟨c, hfind, rfl⟩ := Option.map_eq_some_iff.mp h
        obtain ⟨hc, rfl⟩ := conn_mem hfind
        refine .ping c env htime hc ?_ rfl (setOnline_presence c.userID hup.1)
        intro d
        refine Iff.trans (mem_update fun c => pinged_id c env.now) ?_
        constructor
        · rintro ⟨e, he, rfl⟩
          by_cases hid : e.id = c.id
          · rw [if_pos hid, eq_of_key he hc hid]
            exact Or.inl rfl
          · rw [if_neg hid]
            exact Or.inr ⟨he, hid⟩
        · rintro (rfl | ⟨hd, hid⟩)
          · exact ⟨c, hc, by rw [if_pos rfl]⟩
          · exact ⟨d, hd, by rw [if_neg hid]⟩
    | disconnect id env =>
        obtain ⟨c, hfind, rfl⟩ := Option.map_eq_some_iff.mp h
        obtain ⟨hc, rfl⟩ := conn_mem hfind
        refine .disconnect c env htime hfind ?_ rfl (setOffline_presence c.userID hup.2)
        intro d
        simp only [keep_rows, List.mem_filter, decide_eq_true_eq]
  · cases h

/-! ## The invariant -/

/-- The key of a user is as some connection that is up has set it last, and no
    fresh connection outlives it. -/
structure Owned (s : State) : Prop where
  setter : ∀ u e, s.redis.presence u = some e →
    ∃ c ∈ s.conns.rows, c.userID = u ∧ e.expiry = some (c.last + presenceTTL)
  covered : ∀ c ∈ s.conns.rows, c.fresh s.now → ∃ e t,
    s.redis.presence c.userID = some e ∧ e.expiry = some t ∧ c.last + presenceTTL ≤ t
  past : ∀ c ∈ s.conns.rows, c.last ≤ s.now

/-- No key is set at the start. -/
theorem owned_start {redis : Redis} (hr : ∀ u, redis.presence u = none) (now : Nat) :
    Owned (start redis now) where
  setter := by
    intro u e he
    rw [start, hr u] at he
    cases he
  covered := by intro c hc; cases hc
  past := by intro c hc; cases hc

/-- A key that some connection sets at `now`: it belongs to that connection, and
    covers every other. -/
theorem owned_of_set {s t : State} {u : UUID} {now : Nat} {c : Conn} (hi : Owned s)
    (htime : s.now ≤ now) (hnow : t.now = now)
    (hkey : t.redis.presence
      = Function.update s.redis.presence u (some ⟨"online", some (now + presenceTTL)⟩))
    (hc : c ∈ t.conns.rows) (hcu : c.userID = u) (hlast : c.last = now)
    (hold : ∀ d ∈ t.conns.rows, d = c ∨ d ∈ s.conns.rows)
    (hkeep : ∀ d ∈ s.conns.rows, d.userID ≠ u → d ∈ t.conns.rows) : Owned t where
  setter := by
    intro v e he
    rw [hkey] at he
    by_cases hv : v = u
    · rw [hv, Function.update_self] at he
      refine ⟨c, hc, hcu.trans hv.symm, ?_⟩
      rw [← Option.some.inj he, hlast]
    · rw [Function.update_of_ne hv] at he
      obtain ⟨d, hd, hdv, hexp⟩ := hi.setter v e he
      exact ⟨d, hkeep d hd (by rw [hdv]; exact hv), hdv, hexp⟩
  covered := by
    intro d hd hfresh
    have hdlast : d.last ≤ now := by
      rcases hold d hd with rfl | hin
      · exact le_of_eq hlast
      · exact le_trans (hi.past d hin) htime
    rw [hkey]
    by_cases hdu : d.userID = u
    · rw [hdu, Function.update_self]
      exact ⟨_, _, rfl, rfl, Nat.add_le_add_right hdlast presenceTTL⟩
    · rw [Function.update_of_ne hdu]
      rcases hold d hd with rfl | hin
      · exact absurd hcu hdu
      · refine hi.covered d hin (lt_of_le_of_lt htime ?_)
        rw [Conn.fresh, hnow] at hfresh
        exact hfresh
  past := by
    intro d hd
    rw [hnow]
    rcases hold d hd with rfl | hin
    · exact le_of_eq hlast
    · exact le_trans (hi.past d hin) htime

/-- Every step leaves the keys as the connections that are up have set them. -/
theorem owned_step {s t : State} {a : Act} (hi : Owned s) (hG : Sound s a)
    (h : Stepped s a t) : Owned t := by
  cases h with
  | connect id u env htime hrows hnow hkey =>
      refine owned_of_set (c := ⟨id, u, env.now⟩) hi htime hnow hkey ?_ rfl rfl ?_ ?_
      · rw [hrows]
        exact List.mem_concat_self
      · intro d hd
        rw [hrows] at hd
        rcases List.mem_append.mp hd with hin | hnew
        · exact Or.inr hin
        · exact Or.inl (List.mem_singleton.mp hnew)
      · intro d hd _
        rw [hrows]
        exact List.mem_append_left _ hd
  | ping c env htime hc hrows hnow hkey =>
      refine owned_of_set (c := c.pinged env.now) hi htime hnow hkey
        ((hrows _).mpr (Or.inl rfl)) rfl rfl ?_ ?_
      · intro d hd
        exact ((hrows d).mp hd).imp_right And.left
      · intro d hd hdu
        refine (hrows d).mpr (Or.inr ⟨hd, ?_⟩)
        intro hid
        rw [eq_of_key hd hc hid] at hdu
        exact hdu rfl
  | disconnect c env htime hfind hrows hnow hkey =>
      obtain ⟨-, hlast⟩ := hG
      refine ⟨?_, ?_, ?_⟩
      · intro u e he
        rw [hkey] at he
        by_cases hu : u = c.userID
        · rw [hu, Function.update_self] at he
          cases he
        · rw [Function.update_of_ne hu] at he
          obtain ⟨d, hd, hdu, hexp⟩ := hi.setter u e he
          refine ⟨d, (hrows d).mpr ⟨hd, ?_⟩, hdu, hexp⟩
          intro hid
          rw [eq_of_key hd (conn_mem hfind).1 hid] at hdu
          exact hu hdu.symm
      · intro d hd hfresh
        obtain ⟨hin, hid⟩ := (hrows d).mp hd
        rw [hnow] at hfresh
        rw [hkey]
        by_cases hdu : d.userID = c.userID
        · exact absurd hfresh (hlast c hfind d hin hdu hid)
        · rw [Function.update_of_ne hdu]
          exact hi.covered d hin (lt_of_le_of_lt htime hfresh)
      · intro d hd
        rw [hnow]
        exact le_trans (hi.past d ((hrows d).mp hd).1) htime

/-- An owned key answers right until the next call. -/
theorem agrees_of_owned {s : State} (hi : Owned s) : Agrees s := by
  intro env i u hok htime
  rw [Redis.isOnline, hok, Bool.true_and]
  constructor
  · intro hon
    obtain ⟨e, he⟩ := Option.isSome_iff_exists.mp hon
    obtain ⟨hkey, halive⟩ := Option.filter_eq_some_iff.mp he
    obtain ⟨c, hc, hcu, hexp⟩ := hi.setter u e hkey
    refine ⟨c, hc, hcu, ?_⟩
    rw [hexp] at halive
    exact of_decide_eq_true halive
  · rintro ⟨c, hc, rfl, hfresh⟩
    obtain ⟨e, t, hkey, hexp, ht⟩ := hi.covered c hc (lt_of_le_of_lt htime hfresh)
    obtain ⟨value, expiry⟩ := e
    rw [hkey, show expiry = some t from hexp, alive_of_lt value (lt_of_lt_of_le hfresh ht)]
    rfl

/-- **PRESENCE AGREES WITH THE CONNECTIONS** at every time, in every run in which
    no disconnect meets another fresh connection of its user. -/
theorem presence_agrees {redis : Redis} {now : Nat} {s : State}
    (hr : ∀ u, redis.presence u = none) (h : Reach step Sound (start redis now) s) :
    Agrees s :=
  agrees_of_owned (Reach.invariant
    (fun _ _ _ hs hG ht => owned_step hs hG (step_cases hG.1 ht)) h (owned_start hr now))

/-- And only then: a disconnect that meets one shows its user offline. -/
theorem disagrees_of_shared {s t : State} {a : Act} (hup : RedisUp a) (h : step s a = some t)
    (hshared : ¬ LastOut s a) : ¬ Agrees t := by
  cases step_cases hup h with
  | connect id u env _ _ _ _ => exact absurd trivial hshared
  | ping c env _ _ _ _ _ => exact absurd trivial hshared
  | disconnect c env htime hfind hrows hnow hkey =>
      intro hagrees
      refine hshared ?_
      intro c' hc' d hd hdu hid hfresh
      have hcc : c = c' := Option.some.inj (hfind.symm.trans hc')
      rw [← hcc] at hdu
      have hon := (hagrees ⟨fun _ => true, 0, ⟨0⟩, ⟨0⟩, ⟨0⟩, ⟨0⟩, env.now⟩ 0 c.userID rfl
        (le_of_eq hnow)).mpr ⟨d, (hrows d).mpr ⟨hd, hid⟩, hdu, hfresh⟩
      rw [Redis.isOnline, hkey, Function.update_self] at hon
      cases hon

/-- The environment of a call at `now`. -/
def envAt (now : Nat) : Env := Env.fine ⟨0⟩ ⟨0⟩ now

/-- Alice has two tabs open and closes one: she is shown offline. -/
theorem second_tab_offline : ¬ ∀ s : State,
    Reach step (fun _ a => RedisUp a) (start Redis.empty 0) s → Agrees s := by
  obtain ⟨s, hs, hup, hsome, hshared⟩ := exists_reach_of_replayGuarded step
    (fun _ a => RedisUp a) (start Redis.empty 0)
    [.connect 0 ⟨1⟩ (envAt 0), .connect 1 ⟨1⟩ (envAt 1000)]
    (fun s => RedisUp (.disconnect 1 (envAt 2000)) ∧
      (step s (.disconnect 1 (envAt 2000))).isSome = true ∧
      ¬ LastOut s (.disconnect 1 (envAt 2000))) (by decide)
  obtain ⟨t, ht⟩ := Option.isSome_iff_exists.mp hsome
  intro hall
  exact disagrees_of_shared hup ht hshared (hall t (hs.tail hup ht))

/-- One tab after the other, with pings: presence is right. -/
theorem presence_agrees_reconnect : ∃ s : State,
    Reach step Sound (start Redis.empty 0) s ∧ s.conns.rows.length = 1 ∧ Agrees s := by
  obtain ⟨s, hs, hone⟩ := exists_reach_of_replayGuarded step Sound (start Redis.empty 0)
    [.connect 0 ⟨1⟩ (envAt 0), .ping 0 (envAt 20000), .disconnect 0 (envAt 30000),
      .connect 1 ⟨1⟩ (envAt 31000), .ping 1 (envAt 51000)]
    (fun s => s.conns.rows.length = 1) (by decide)
  exact ⟨s, hs, hone, presence_agrees (fun _ => rfl) hs⟩

end PeerPresence
