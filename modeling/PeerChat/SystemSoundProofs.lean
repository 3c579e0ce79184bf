import PeerChat.SystemStepProofs

/-! # Every run of the system

    One invariant, `Sound`, over any number of instances, users, connections and
    requests, under one assumption: nobody else holds `JWT_SECRET`.  Every token
    handed out names a stored user; every connection and every request is of
    somebody a token was handed out to; every goroutine is vouched for, and
    everything on its way is `Told`.  `sound_step` is the step, `sound_run` the
    run. -/

namespace PeerSystem

open PeerEnv KeyedTable PeerHub PeerRouter PeerStore PeerFrame PeerRedis PeerWorld PeerHandler
open PeerDispatch PeerAuth PeerCluster PeerChatStore SignedToken Transition ThreadPool

variable {σ ι : Type} {su : Setup σ} {who : ι → ClientId → UUID × String} {db₀ : Db}
  {ever : UUID → UUID → Prop}

/-- What is known at instance `i`. -/
def System.ctx (su : Setup σ) (who : ι → ClientId → UUID × String) (ever : UUID → UUID → Prop)
    (s : System ι) (i : ι) : Ctx :=
  ⟨su.fmt, s.db, ever, s.issued, who i, s.conns i⟩

/-- **THE INVARIANT**; `ever` says who has been in which group so far. -/
structure Sound (su : Setup σ) (who : ι → ClientId → UUID × String) (db₀ : Db)
    (ever : UUID → UUID → Prop) (s : System ι) : Prop where
  users : ∀ i c, (s.hub i).userOf c = (who i c).1
  signed : Signed su.scheme su.handler.jwtSecret s.issued
  named : ∀ e ∈ s.issued, Named s.db e.1.userID e.1.username
  conns : ∀ i, ∀ c ∈ s.conns i, Speaks s.issued (who i c).1 (who i c).2
  airs : ∀ i, Airs (Told su.fmt ever s.db) (s.world i)
  tasks : ∀ i, ∀ t ∈ s.tasks i, (s.ctx su who ever i).Vouched t
  grouped : ∀ g u, s.db.InGroup g u → ever g u
  chats : ChatRows db₀ → ChatRows s.db
  messages : ∀ m ∈ s.db.messages.rows,
    m.id ∈ db₀.messages.keys ∨ ∃ name, Speaks s.issued m.senderID name
  groupMessages : ∀ m ∈ s.db.groupMessages.rows,
    m ∈ db₀.groupMessages.rows ∨ ∃ name, Speaks s.issued m.senderID name

variable {s s' : System ι}

theorem Sound.speaks_named (h : Sound su who db₀ ever s) (i : ι) (id : UUID) (name : String)
    (hspeaks : (s.ctx su who ever i).Speaks id name) : Named s.db id name := by
  obtain ⟨e, he, rfl, rfl⟩ := hspeaks
  exact h.named e he

theorem Sound.fits (h : Sound su who db₀ ever s) (i : ι) : Fits (s.ctx su who ever i) (s.world i) :=
  ⟨rfl, h.users i, h.airs i, h.speaks_named i, h.grouped⟩

/-- More users may have been in more groups. -/
theorem Sound.mono {ever' : UUID → UUID → Prop} (h : Sound su who db₀ ever s)
    (hever : ∀ g u, ever g u → ever' g u) : Sound su who db₀ ever' s := by
  have hle : ∀ i, (s.ctx su who ever i).Le (s.ctx su who ever' i) := fun i =>
    ⟨rfl, rfl, Grows.refl s.db, hever, fun e he => he, fun c hc => hc⟩
  refine ⟨h.users, h.signed, h.named, h.conns, fun i => ?_,
    fun i t ht => Ctx.Vouched.le (h.tasks i t ht) (hle i),
    fun g u hin => hever g u (h.grouped g u hin),
    h.chats, h.messages, h.groupMessages⟩
  exact (h.airs i).mono fun u f htold => htold.mono (Grows.refl s.db) hever

/-- Whoever spoke still speaks. -/
theorem Speaks.grow {ledger more : List (Claims × String)} {id : UUID} {name : String}
    (h : Speaks ledger id name) : Speaks (ledger ++ more) id name := by
  obtain ⟨e, he, hid⟩ := h
  exact ⟨e, List.mem_append_left _ he, hid⟩

/-- **A SESSION IS OPENED**: the tables have grown, and tokens of stored users have been
    handed out. -/
theorem Sound.issue (h : Sound su who db₀ ever s) {db : Db} {more : List (Claims × String)}
    (hg : Grows s.db db) (hchats : db.chats = s.db.chats)
    (hmembers : db.chatMembers = s.db.chatMembers) (hmessages : db.messages = s.db.messages)
    (hgroup : db.groupMessages = s.db.groupMessages)
    (hgrouped : ∀ g u, db.InGroup g u → ever g u)
    (hsigned : Signed su.scheme su.handler.jwtSecret more)
    (hnamed : ∀ e ∈ more, Named db e.1.userID e.1.username) :
    Sound su who db₀ ever { s with db := db, issued := s.issued ++ more } := by
  have hle : ∀ i, (s.ctx su who ever i).Le
      (System.ctx su who ever { s with db := db, issued := s.issued ++ more } i) := fun i =>
    ⟨rfl, rfl, hg, fun g u hin => hin, fun e he => List.mem_append_left _ he, fun c hc => hc⟩
  refine ⟨h.users, h.signed.append hsigned, ?_, fun i c hc => (h.conns i c hc).grow, ?_,
    fun i t ht => Ctx.Vouched.le (h.tasks i t ht) (hle i), hgrouped, ?_, ?_, ?_⟩
  · intro e he
    rcases List.mem_append.mp he with hold | hnew
    · exact (h.named e hold).mono hg
    · exact hnamed e hnew
  · intro i
    have hold := (h.airs i).mono fun u f htold => Told.mono htold hg fun g v hin => hin
    exact ⟨hold.log, hold.heard, hold.published⟩
  · intro hdb
    refine (h.chats hdb).keep hchats hmembers ?_
    intro m hm
    rw [hmessages] at hm
    rw [Db.Member, hmembers]
    exact (h.chats hdb).senders m hm
  · intro m hm
    rw [hmessages] at hm
    rcases h.messages m hm with hold | ⟨name, hspeaks⟩
    · exact Or.inl hold
    · exact Or.inr ⟨name, hspeaks.grow⟩
  · intro m hm
    rw [hgroup] at hm
    rcases h.groupMessages m hm with hold | ⟨name, hspeaks⟩
    · exact Or.inl hold
    · exact Or.inr ⟨name, hspeaks.grow⟩

-- ── What `Register` and `Login` hand out ──────────────────────────────────────

theorem Sound.registered (h : Sound su who db₀ ever s) (env : AuthEnv σ) (body : List UInt8)
    (hgrouped : ∀ g u, (su.handler.register s.db env body).1.InGroup g u → ever g u) :
    Sound su who db₀ ever { s with
      db := (su.handler.register s.db env body).1
      issued := s.issued ++ PeerAuth.issued env (su.handler.register s.db env body).2.body } := by
  have hissued : ∀ e ∈ PeerAuth.issued env (su.handler.register s.db env body).2.body,
      su.scheme.sign e.1 su.handler.jwtSecret = some e.2 ∧
        Named (su.handler.register s.db env body).1 e.1.userID e.1.username := by
    intro e he
    cases hbody : (su.handler.register s.db env body).2.body with
    | error text =>
        rw [hbody] at he
        cases he
    | session token userID username =>
        rw [hbody] at he
        rw [List.mem_singleton.mp he]
        exact register_session s.db env body hbody
  have hsigned : Signed su.scheme su.handler.jwtSecret
      (PeerAuth.issued env (su.handler.register s.db env body).2.body) :=
    fun e he => (hissued e he).1
  rcases register_db su.handler s.db env body with hdb | ⟨username, hash, u, hcreate⟩
  · refine h.issue ?_ (by rw [hdb]) (by rw [hdb]) (by rw [hdb]) (by rw [hdb]) hgrouped hsigned
      fun e he => (hissued e he).2
    rw [hdb]
    exact Grows.refl s.db
  · obtain ⟨hchats, hmembers, hmessages, hgroup⟩ := createUser_tables hcreate
    exact h.issue (createUser_grows hcreate) hchats hmembers hmessages hgroup hgrouped hsigned
      fun e he => (hissued e he).2

theorem Sound.loggedIn (h : Sound su who db₀ ever s) (env : AuthEnv σ) (body : List UInt8) :
    Sound su who db₀ ever { s with
      issued := s.issued ++ PeerAuth.issued env (su.handler.login s.db env body).body } := by
  have hissued : ∀ e ∈ PeerAuth.issued env (su.handler.login s.db env body).body,
      su.scheme.sign e.1 su.handler.jwtSecret = some e.2 ∧
        Named s.db e.1.userID e.1.username := by
    intro e he
    cases hbody : (su.handler.login s.db env body).body with
    | error text =>
        rw [hbody] at he
        cases he
    | session token userID username =>
        rw [hbody] at he
        rw [List.mem_singleton.mp he]
        exact login_issues s.db env body hbody
  exact h.issue (Grows.refl s.db) rfl rfl rfl rfl h.grouped (fun e he => (hissued e he).1)
    fun e he => (hissued e he).2

-- ── The middleware ────────────────────────────────────────────────────────────

/-- **The middleware passes who was handed a token**: what it opens are the claims of one,
    and they have not expired. -/
theorem Sound.jwtAuth_iff (hjwt : su.jwt.Lawful su.handler.lib) (h : Sound su who db₀ ever s)
    {p : Presented} (hp : SignedToken.Unforged su.scheme su.handler.jwtSecret s.issued p.tokenStr)
    {now : Nat} {id : UUID} {name : String} :
    jwtAuth su.jwt su.handler.jwtSecret now p = .ok (id, name) ↔
      p.tokenStr ≠ "" ∧ ∃ e ∈ s.issued,
        parseToken su.jwt now p.tokenStr su.handler.jwtSecret = some e.1 ∧
          now < e.1.expiresAt ∧ e.1.userID = id ∧ e.1.username = name := by
  rw [jwtAuth_ok]
  refine and_congr_right fun _ => ?_
  constructor
  · rintro ⟨c, hc, hid, hname⟩
    obtain ⟨⟨e, he, rfl⟩, hnow⟩ := open_signed (Jwt.scheme_lawful hjwt) h.signed hp hc
    exact ⟨e, he, hc, hnow, hid, hname⟩
  · rintro ⟨e, -, hc, -, hid, hname⟩
    exact ⟨e.1, hc, hid, hname⟩

/-- **A token that was handed out passes** as its user until it expires, however it is
    spelled. -/
theorem Sound.handedOut_iff (hjwt : su.jwt.Lawful su.handler.lib) (h : Sound su who db₀ ever s)
    {e : Claims × String} (he : e ∈ s.issued) {p : Presented}
    (hp : su.jwt.content p.tokenStr = su.jwt.content e.2) {now : Nat} {id : UUID}
    {name : String} :
    jwtAuth su.jwt su.handler.jwtSecret now p = .ok (id, name) ↔
      now < e.1.expiresAt ∧ e.1.userID = id ∧ e.1.username = name := by
  have hopens : ∀ {c}, parseToken su.jwt now p.tokenStr su.handler.jwtSecret = some c ↔
      e.1 = c ∧ now < e.1.expiresAt :=
    fun {c} => opens_signed (Jwt.scheme_lawful hjwt) h.signed he hp
  have hne : p.tokenStr ≠ "" := by
    intro hempty
    rw [hempty] at hp
    exact hjwt.signed_ne (h.signed e he) hp
  rw [jwtAuth_ok]
  constructor
  · rintro ⟨-, c, hc, hid, hname⟩
    obtain ⟨rfl, hnow⟩ := hopens.mp hc
    exact ⟨hnow, hid, hname⟩
  · rintro ⟨hnow, hid, hname⟩
    exact ⟨hne, e.1, hopens.mpr ⟨rfl, hnow⟩, hid, hname⟩

/-- Whoever passes speaks. -/
theorem Sound.speaks (hjwt : su.jwt.Lawful su.handler.lib) (h : Sound su who db₀ ever s)
    {p : Presented} (hp : SignedToken.Unforged su.scheme su.handler.jwtSecret s.issued p.tokenStr)
    {now : Nat} {user : UUID × String}
    (hok : jwtAuth su.jwt su.handler.jwtSecret now p = .ok user) :
    Speaks s.issued user.1 user.2 := by
  obtain ⟨-, e, he, -, -, hid, hname⟩ := (h.jwtAuth_iff hjwt hp).mp hok
  exact ⟨e, he, hid, hname⟩

/-! ## The invariant holds -/

theorem sound_start (su : Setup σ) (db₀ : Db) (who : ι → ClientId → UUID × String)
    (hgrouped : ∀ g u, db₀.InGroup g u → ever g u) :
    Sound su who db₀ ever (start db₀ who) where
  users _ _ := rfl
  signed := Signed.nil _ _
  named _ he := by cases he
  conns _ _ hc := by cases hc
  airs _ := ⟨(fun _ he => by cases he), (fun _ _ hf => by cases hf), (fun _ he => by cases he)⟩
  tasks _ _ ht := by cases ht
  grouped := hgrouped
  chats h := h
  messages m hm := Or.inl (List.mem_map_of_mem hm)
  groupMessages _ hm := Or.inl hm

section Steps

variable [DecidableEq ι]

/-- **AN INSTANCE ADVANCES**, and the others see what it did. -/
theorem Sound.advance (h : Sound su who db₀ ever s) {i : ι} {w : World} {l ts : List Task}
    (ha : Advance (s.ctx su who ever i) w l) (hgrouped : ∀ g u, w.db.InGroup g u → ever g u)
    (hts : ∀ t ∈ ts, t ∈ l ∨ t ∈ s.tasks i) :
    Sound su who db₀ ever (s.set i w ts) := by
  have hle : ∀ j, (s.ctx su who ever j).Le ((s.ctx su who ever j).withDb w.db) :=
    fun j => Ctx.le_db ha.grows
  refine ⟨?_, h.signed, ?_, h.conns, ?_, ?_, hgrouped, fun hdb => ha.chats (h.chats hdb), ?_, ?_⟩
  · intro j c
    by_cases hj : j = i
    · subst hj
      show (Function.update s.hub j w.hub j).userOf c = _
      rw [Function.update_self]
      exact ha.users c
    · show (Function.update s.hub i w.hub j).userOf c = _
      rw [Function.update_of_ne hj]
      exact h.users j c
  · exact fun e he => (h.named e he).mono ha.grows
  · intro j
    by_cases hj : j = i
    · subst hj
      show Airs _ ((s.toCluster.put j w).world j)
      rw [put_world]
      exact ha.airs
    · show Airs _ ((s.toCluster.put i w).world j)
      rw [put_world_ne _ hj]
      have hold := (h.airs j).mono fun u f htold => Told.mono htold ha.grows fun g v hin => hin
      exact ⟨hold.log, ha.airs.heard, ha.airs.published⟩
  · intro j t ht
    by_cases hj : j = i
    · subst hj
      simp only [System.set, Function.update_self] at ht
      rcases hts t ht with hnew | hold
      · exact ha.vouched t hnew
      · exact Ctx.Vouched.le (h.tasks j t hold) (hle j)
    · simp only [System.set, Function.update_of_ne hj] at ht
      exact Ctx.Vouched.le (h.tasks j t ht) (hle j)
  · intro m hm
    rcases ha.authored.messages m hm with ⟨m₀, hm₀, hid, hsender⟩ | hspeaks
    · rw [← hid, ← hsender]
      exact h.messages m₀ hm₀
    · exact Or.inr hspeaks
  · intro m hm
    rcases ha.authored.groupMessages m hm with hold | hspeaks
    · exact h.groupMessages m hold
    · exact Or.inr hspeaks

/-- A connection is accepted, for a user who was handed a token. -/
theorem Sound.conn (h : Sound su who db₀ ever s) {i : ι} {c : ClientId}
    (hspeaks : Speaks s.issued (who i c).1 (who i c).2) :
    Sound su who db₀ ever { s with conns := Function.update s.conns i (c :: s.conns i) } := by
  have hsub : ∀ j, ∀ d ∈ s.conns j, d ∈ Function.update s.conns i (c :: s.conns i) j := by
    intro j d hd
    by_cases hj : j = i
    · subst hj
      rw [Function.update_self]
      exact List.mem_cons_of_mem _ hd
    · rw [Function.update_of_ne hj]
      exact hd
  refine ⟨h.users, h.signed, h.named, ?_, h.airs, ?_, h.grouped, h.chats, h.messages,
    h.groupMessages⟩
  · intro j d hd
    by_cases hj : j = i
    · subst hj
      simp only [Function.update_self] at hd
      rcases List.mem_cons.mp hd with rfl | hd
      · exact hspeaks
      · exact h.conns j d hd
    · simp only [Function.update_of_ne hj] at hd
      exact h.conns j d hd
  · exact fun j t ht => Ctx.Vouched.le (h.tasks j t ht)
      ⟨rfl, rfl, Grows.refl s.db, fun g u hin => hin, fun e he => he, hsub j⟩

/-- **THE STEP LEMMA.** -/
theorem sound_step (hjwt : su.jwt.Lawful su.handler.lib) {a : Act ι σ}
    (h : Sound su who db₀ ever s) (hG : Unforged su s a) (hs : step su who s a = some s')
    (hgrouped : ∀ g u, s'.db.InGroup g u → ever g u) : Sound su who db₀ ever s' := by
  -- a step of the instance that touches no table and starts no goroutine
  have hquiet : ∀ i w, Aired (s.ctx su who ever i).Told (s.world i) w →
      Sound su who db₀ ever (s.set i w (s.tasks i)) := fun i w haired =>
    h.advance (haired.advance (h.fits i) (l := []) fun t ht => by cases ht)
      (haired.db ▸ h.grouped) fun t ht => Or.inr ht
  -- one that starts a goroutine and does nothing else
  have hspawn : ∀ i t, (s.ctx su who ever i).Vouched t →
      Sound su who db₀ ever (s.set i (s.world i) (s.tasks i ++ [t])) := fun i t hv =>
    h.advance ((Aired.refl _).advance (h.fits i) (l := [t])
      fun t' ht => by rw [List.mem_singleton.mp ht]; exact hv)
      h.grouped fun t' ht => (List.mem_append.mp ht).symm
  cases step_cases hs with
  | registered env body => exact h.registered env body hgrouped
  | loggedIn env body => exact h.loggedIn env body
  | refused a ha => exact h
  | asked i now p partnerIDStr myID name partnerID hp =>
      exact hspawn i _ ⟨⟨name, h.speaks hjwt (hG p rfl) hp⟩, rfl⟩
  | connected i now p c hp =>
      have hc := h.conn (h.speaks hjwt (hG p rfl) hp)
      refine hc.advance (l := [.socket (.connRegister c)]) ?_ h.grouped
        fun t' ht => (List.mem_append.mp ht).symm
      refine (Aired.refl _).advance (hc.fits i) ?_
      intro t ht
      rw [List.mem_singleton.mp ht]
      show c ∈ Function.update s.conns i (c :: s.conns i) i
      rw [Function.update_self]
      exact List.mem_cons_self
  | received i c env raw hlive hfits =>
      have hspeaks := h.conns i c (h.tasks i _ hlive)
      exact h.advance (advance_receives (h.fits i) hspeaks raw) hgrouped
        fun t ht => (List.mem_append.mp ht).symm
  | ran i k env t w t' new hk ht =>
      refine h.advance (advance_task (h.fits i) (h.tasks i t (List.mem_of_getElem? hk)) ht)
        hgrouped ?_
      intro t₁ ht₁
      rcases mem_moved ht₁ with hold | hmoved | hnew
      · exact Or.inr hold
      · exact Or.inl (by rw [hmoved]; exact List.mem_cons_self)
      · exact Or.inl (List.mem_cons_of_mem _ hnew)
  | activated i sub =>
      exact hquiet i _ ⟨Emits.of_quiet rfl rfl, fun hr => hr.activate sub, rfl⟩
  | wrote i c =>
      refine hquiet i _ ⟨emits_of_log (fun d => ?_) ?_, fun hr => hr, rfl⟩
      · exact PeerServer.popHub_userOf _ c d
      · exact PeerServer.popHub_log _ c

/-- Whoever is in a group now is among the `ever`. -/
def Within (ever : UUID → UUID → Prop) (s : System ι) : Prop :=
  ∀ g u, s.db.InGroup g u → ever g u

/-- **THE RUN LEMMA**, for a run all of whose states are within `ever`. -/
theorem sound_run (hjwt : su.jwt.Lawful su.handler.lib)
    (h : Reach (step su who) (fun s a => Unforged su s a ∧ Within ever s) (start db₀ who) s)
    (hs : Within ever s) : Sound su who db₀ ever s := by
  induction h with
  | refl => exact sound_start su db₀ who hs
  | tail _ hst ih =>
      obtain ⟨a, ⟨hG, hwithin⟩, hstep⟩ := hst
      exact sound_step hjwt (ih hwithin) hG hstep hs

theorem sound_reach (hjwt : su.jwt.Lawful su.handler.lib)
    (h : Reach (step su who) (Unforged su) (start db₀ who) s) :
    Sound su who db₀ (fun _ _ => True) s :=
  sound_run hjwt (h.weaken fun _ _ hG => ⟨hG, fun _ _ _ => trivial⟩) fun _ _ _ => trivial

end Steps

end PeerSystem
