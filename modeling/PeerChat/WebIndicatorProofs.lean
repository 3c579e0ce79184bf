import PeerChat.RedisProofs
import PeerChat.WebClientProofs

/-! # How long the typing indicator lasts

    One tab on a clock of milliseconds: a typing frame sets the entry of its chat and
    starts a timer that clears it five seconds later.  No timer knows of the others, and
    a reload keeps the entries, since the store is persisted, and drops the timers.

    What is handled in a millisecond comes before the timers due in it.  On the other
    side the key `typing:<chat>:<user>` expires five seconds after the last typing event
    that set it. -/

namespace PeerWeb

open JsRecord PeerEnv PeerRedis

inductive TabEvent where
  | typing (chatId : String)
  /-- The page is loaded again. -/
  | reload
  deriving DecidableEq, Repr

/-- The store, and for each pending timer the chat it clears and when it is due. -/
structure Tab where
  store : ChatStore
  timers : List (String × Nat)

/-- The delay of `setTimeout(() => setTyping(chatId, false), 5000)`. -/
def typingDelay : Nat := 5000

namespace Tab

/-- The timers due before `t` run. -/
def expire (tab : Tab) (t : Nat) : Tab where
  store := (tab.timers.filter fun e => e.2 < t).foldl
    (fun s e => s.setTyping e.1 false) tab.store
  timers := tab.timers.filter fun e => t ≤ e.2

/-- An event at time `t`, after what was due before. -/
def handle (tab : Tab) (t : Nat) : TabEvent → Tab
  | .typing chatId =>
      { store := (tab.expire t).store.onmessage (.typing chatId)
        timers := (tab.expire t).timers ++ [(chatId, t + typingDelay)] }
  | .reload => { tab.expire t with timers := [] }

def run (tab : Tab) (es : List (Nat × TabEvent)) : Tab :=
  es.foldl (fun tab e => tab.handle e.1 e.2) tab

/-- The tab when the millisecond `t` is over. -/
def stateAt (tab : Tab) (es : List (Nat × TabEvent)) (t : Nat) : Tab :=
  (tab.run (es.filter fun e => e.1 ≤ t)).expire (t + 1)

/-- `s.typing[chatId]`, as `ChatWindow` reads it. -/
def Shows (tab : Tab) (chatId : String) : Prop := tab.store.typing.get? chatId = some true

instance (tab : Tab) (chatId : String) : Decidable (tab.Shows chatId) :=
  inferInstanceAs (Decidable (_ = _))

end Tab

/-- A typing frame for `chatId` was handled within the five seconds before `t`. -/
def TypedWithin (chatId : String) (es : List (Nat × TabEvent)) (t : Nat) : Prop :=
  ∃ f, (f, .typing chatId) ∈ es ∧ f ≤ t ∧ t < f + typingDelay

/-- The timer of a frame handled at `f` lives to run: no reload comes before. -/
def TimerRuns (chatId : String) (es : List (Nat × TabEvent)) (f : Nat) : Prop :=
  ∃ before after, es = before ++ (f, .typing chatId) :: after ∧
    ∀ r, (r, .reload) ∈ after → f + typingDelay < r

variable {chatId : String} {es es' : List (Nat × TabEvent)} {f t : Nat}

/-- The timers of a longer run are those of its end, and of its start where no reload
    came. -/
theorem timerRuns_append : TimerRuns chatId (es ++ es') f ↔
    (TimerRuns chatId es f ∧ ∀ r, (r, .reload) ∈ es' → f + typingDelay < r) ∨
      TimerRuns chatId es' f := by
  constructor
  · rintro ⟨before, after, hsplit, hlive⟩
    rcases List.append_eq_append_iff.mp hsplit with ⟨mid, rfl, hes'⟩ | ⟨mid, hes, hrest⟩
    · exact Or.inr ⟨mid, after, hes', hlive⟩
    · cases mid with
      | nil => exact Or.inr ⟨[], after, hrest.symm, hlive⟩
      | cons e mid =>
          rw [List.cons_append, List.cons.injEq] at hrest
          obtain ⟨rfl, rfl⟩ := hrest
          refine Or.inl ⟨⟨before, mid, hes, ?_⟩, ?_⟩
          · intro r hr
            exact hlive r (List.mem_append_left _ hr)
          · intro r hr
            exact hlive r (List.mem_append_right _ hr)
  · rintro (⟨⟨before, after, rfl, hlive⟩, hlater⟩ | ⟨before, after, rfl, hlive⟩)
    · refine ⟨before, after ++ es', by rw [List.append_assoc, List.cons_append], ?_⟩
      intro r hr
      rcases List.mem_append.mp hr with hr | hr
      · exact hlive r hr
      · exact hlater r hr
    · exact ⟨es ++ before, after, by rw [List.append_assoc], hlive⟩

/-- A timer has its frame. -/
theorem TimerRuns.typed (h : TimerRuns chatId es f) : (f, .typing chatId) ∈ es := by
  obtain ⟨before, after, rfl, -⟩ := h
  exact List.mem_append_right _ List.mem_cons_self

theorem timerRuns_typing {chatId' : String} : TimerRuns chatId [(t, .typing chatId')] f ↔
    chatId' = chatId ∧ t = f := by
  constructor
  · intro h
    have hmem := List.mem_singleton.mp h.typed
    cases hmem
    exact ⟨rfl, rfl⟩
  · rintro ⟨rfl, rfl⟩
    exact ⟨[], [], rfl, fun _ hr => absurd hr List.not_mem_nil⟩

theorem not_timerRuns_reload : ¬ TimerRuns chatId [(t, .reload)] f := by
  intro h
  have hmem := List.mem_singleton.mp h.typed
  cases hmem

namespace Tab

variable {tab : Tab}

/-! ## What is pending, and what shows -/

/-- A timer that is not yet due has not expired. -/
theorem mem_timers_expire {e : String × Nat} :
    e ∈ (tab.expire t).timers ↔ e ∈ tab.timers ∧ t ≤ e.2 := by
  rw [expire, List.mem_filter, decide_eq_true_eq]

/-- An indicator shows what was set last. -/
theorem shows_setTyping {s : ChatStore} {c : String} {on : Bool} :
    (s.setTyping c on).typing.get? chatId = some true ↔
      if c = chatId then on = true else s.typing.get? chatId = some true := by
  rw [ChatStore.setTyping]
  split
  · rename_i heq
    rw [heq, get?_set_self, Option.some.injEq]
  · rename_i hne
    rw [get?_set_ne _ _ (Ne.symm hne)]

/-- The timers of a chat clear its entry. -/
theorem shows_clear (cleared : List (String × Nat)) (s : ChatStore) :
    (cleared.foldl (fun s e => s.setTyping e.1 false) s).typing.get? chatId = some true ↔
      s.typing.get? chatId = some true ∧ ∀ e ∈ cleared, e.1 ≠ chatId := by
  induction cleared generalizing s with
  | nil => simp
  | cons e cleared ih =>
      rw [List.foldl_cons, ih, shows_setTyping, List.forall_mem_cons]
      split
      · rename_i heq
        simp [heq]
      · rename_i hne
        simp [hne]

/-- An indicator shows until one of its timers is due. -/
theorem shows_expire : (tab.expire t).Shows chatId ↔
    tab.Shows chatId ∧ ∀ d, (chatId, d) ∈ tab.timers → t ≤ d := by
  rw [Shows, expire, shows_clear]
  refine and_congr_right fun _ => ?_
  constructor
  · intro hclear d hd
    by_contra hlate
    have hdue : (chatId, d) ∈ tab.timers.filter fun e => e.2 < t := by
      rw [List.mem_filter, decide_eq_true_eq]
      exact ⟨hd, Nat.lt_of_not_le hlate⟩
    exact hclear _ hdue rfl
  · rintro hpending ⟨c, d⟩ he rfl
    rw [List.mem_filter, decide_eq_true_eq] at he
    exact Nat.not_le_of_lt he.2 (hpending d he.1)

theorem run_snoc (es : List (Nat × TabEvent)) (e : Nat × TabEvent) :
    tab.run (es ++ [e]) = (tab.run es).handle e.1 e.2 := by
  rw [run, List.foldl_append]
  rfl

/-- A typing frame starts one timer. -/
theorem mem_timers_typing {c : String} {d : Nat} :
    (chatId, d) ∈ (tab.handle t (.typing c)).timers ↔
      ((chatId, d) ∈ tab.timers ∧ t ≤ d) ∨ (c = chatId ∧ d = t + typingDelay) := by
  show _ ∈ (tab.expire t).timers ++ [(c, t + typingDelay)] ↔ _
  rw [List.mem_append, mem_timers_expire, List.mem_singleton, Prod.mk.injEq, eq_comm (b := c)]

/-- A typing frame shows its indicator. -/
theorem shows_typing {c : String} : (tab.handle t (.typing c)).Shows chatId ↔
    c = chatId ∨ (tab.expire t).Shows chatId := by
  show ((tab.expire t).store.setTyping c true).typing.get? chatId = some true ↔ _
  rw [shows_setTyping]
  split
  · rename_i heq
    exact iff_of_true rfl (Or.inl heq)
  · rename_i hne
    exact (or_iff_right hne).symm

/-- A frame of another chat. -/
theorem shows_typing_ne {c : String} {u : Nat} (hne : c ≠ chatId) (hut : u ≤ t) :
    ((tab.handle u (.typing c)).expire t).Shows chatId ↔ (tab.expire t).Shows chatId := by
  rw [shows_expire, shows_typing, or_iff_right hne, shows_expire, shows_expire, and_assoc]
  refine and_congr_right fun _ => ?_
  constructor
  · rintro ⟨hdue, hpending⟩ d hd
    exact hpending d (mem_timers_typing.mpr (Or.inl ⟨hd, hdue d hd⟩))
  · intro hpending
    refine ⟨fun d hd => hut.trans (hpending d hd), ?_⟩
    intro d hd
    rcases mem_timers_typing.mp hd with ⟨hold, -⟩ | ⟨heq, -⟩
    · exact hpending d hold
    · exact absurd heq hne

/-- After a reload nothing is cleared. -/
theorem shows_reload {u : Nat} : ((tab.handle u .reload).expire t).Shows chatId ↔
    (tab.expire u).Shows chatId := by
  rw [shows_expire]
  exact and_iff_left fun d hd => absurd hd List.not_mem_nil

/-- Pending are the timers that will run, from the last event on. -/
theorem mem_timers_run {s : ChatStore} (hsorted : es.Pairwise fun e e' => e.1 ≤ e'.1)
    (hlast : ∀ e ∈ es, e.1 ≤ t) {d : Nat} (hd : t ≤ d) :
    (chatId, d) ∈ ((⟨s, []⟩ : Tab).run es).timers ↔
      ∃ f, d = f + typingDelay ∧ TimerRuns chatId es f := by
  induction es using List.reverseRecOn generalizing t with
  | nil =>
      refine iff_of_false List.not_mem_nil ?_
      rintro ⟨f, -, hruns⟩
      exact List.not_mem_nil hruns.typed
  | append_singleton es e ih =>
      obtain ⟨u, e⟩ := e
      have hlt : ∀ e' ∈ es, e'.1 ≤ u := fun e' he' =>
        (List.pairwise_append.mp hsorted).2.2 e' he' _ (List.mem_singleton_self _)
      have hut : u ≤ t := hlast _ List.mem_concat_self
      have hold := ih (List.pairwise_append.mp hsorted).1 hlt (hut.trans hd)
      rw [run_snoc]
      cases e with
      | typing c =>
          rw [mem_timers_typing, hold, and_iff_left (hut.trans hd)]
          simp only [timerRuns_append, timerRuns_typing]
          constructor
          · rintro (⟨f, hf, hruns⟩ | ⟨rfl, rfl⟩)
            · exact ⟨f, hf, Or.inl ⟨hruns, by simp⟩⟩
            · exact ⟨u, rfl, Or.inr ⟨rfl, rfl⟩⟩
          · rintro ⟨f, rfl, ⟨hruns, -⟩ | ⟨rfl, rfl⟩⟩
            · exact Or.inl ⟨f, rfl, hruns⟩
            · exact Or.inr ⟨rfl, rfl⟩
      | reload =>
          -- the timers are gone with the page
          refine iff_of_false List.not_mem_nil ?_
          rintro ⟨f, rfl, hruns⟩
          rcases timerRuns_append.mp hruns with ⟨-, hlive⟩ | hreload
          · exact absurd (hlive u (List.mem_singleton_self _)) (Nat.not_lt.mpr (hut.trans hd))
          · exact not_timerRuns_reload hreload

/-- Right after a frame the entry is set, until the next timer. -/
theorem shows_run_typing {s : ChatStore} {u : Nat}
    (hsorted : (es ++ [(u, TabEvent.typing chatId)]).Pairwise fun e e' => e.1 ≤ e'.1)
    (hlast : ∀ e ∈ es ++ [(u, TabEvent.typing chatId)], e.1 ≤ u) :
    (((⟨s, []⟩ : Tab).run (es ++ [(u, .typing chatId)])).expire t).Shows chatId ↔
      ∀ g, TimerRuns chatId (es ++ [(u, .typing chatId)]) g → g + typingDelay < t →
        g + typingDelay < u := by
  rw [shows_expire]
  constructor
  · rintro ⟨-, hpending⟩ g hg hdue
    by_contra hlate
    have hin := (mem_timers_run (s := s) hsorted hlast (Nat.le_of_not_lt hlate)).mpr ⟨g, rfl, hg⟩
    exact absurd (hpending _ hin) (Nat.not_le_of_lt hdue)
  · intro hclear
    refine ⟨?_, ?_⟩
    · rw [run_snoc, shows_typing]
      exact Or.inl rfl
    · intro d hd
      by_contra hdue
      have hud : u ≤ d := by
        rw [run_snoc, mem_timers_typing] at hd
        rcases hd with ⟨-, hud⟩ | ⟨-, rfl⟩
        · exact hud
        · exact Nat.le_add_right _ _
      obtain ⟨g, rfl, hg⟩ := (mem_timers_run hsorted hlast hud).mp hd
      exact absurd (hclear g hg (Nat.lt_of_not_le hdue)) (Nat.not_lt.mpr hud)

/-- **THE LAST FRAME THAT NO TIMER HAS FOLLOWED** is what shows the indicator. -/
theorem shows_run {s : ChatStore} (hstart : s.typing.get? chatId ≠ some true)
    (hsorted : es.Pairwise fun e e' => e.1 ≤ e'.1) (hlast : ∀ e ∈ es, e.1 ≤ t) :
    (((⟨s, []⟩ : Tab).run es).expire t).Shows chatId ↔
      ∃ f, (f, .typing chatId) ∈ es ∧
        ∀ g, TimerRuns chatId es g → g + typingDelay < t → g + typingDelay < f := by
  induction es using List.reverseRecOn generalizing t with
  | nil =>
      rw [shows_expire]
      refine iff_of_false (fun h => hstart h.1) ?_
      rintro ⟨f, hf, -⟩
      exact List.not_mem_nil hf
  | append_singleton es e ih =>
      obtain ⟨u, e⟩ := e
      have hes : es.Pairwise fun e e' => e.1 ≤ e'.1 := (List.pairwise_append.mp hsorted).1
      have hbefore : ∀ e' ∈ es, e'.1 ≤ u := fun e' he' =>
        (List.pairwise_append.mp hsorted).2.2 e' he' _ (List.mem_singleton_self _)
      have hut : u ≤ t := hlast _ List.mem_concat_self
      have htop : ∀ e' ∈ es ++ [(u, e)], e'.1 ≤ u := by
        intro e' he'
        rcases List.mem_append.mp he' with hold | hnew
        · exact hbefore e' hold
        · rw [List.mem_singleton.mp hnew]
      cases e with
      | typing c =>
          by_cases hc : c = chatId
          · -- the frame itself is the latest there is
            subst hc
            rw [shows_run_typing hsorted htop]
            constructor
            · intro hclear
              exact ⟨u, List.mem_concat_self, hclear⟩
            · rintro ⟨f, hf, hclear⟩ g hg hdue
              exact (hclear g hg hdue).trans_le (htop _ hf)
          · rw [run_snoc, shows_typing_ne hc hut, ih hes fun e he => (hbefore e he).trans hut]
            have hruns : ∀ g, TimerRuns chatId (es ++ [(u, TabEvent.typing c)]) g ↔
                TimerRuns chatId es g := by
              intro g
              rw [timerRuns_append, timerRuns_typing]
              simp [hc]
            simp [hruns, Ne.symm hc]
      | reload =>
          rw [run_snoc, shows_reload, ih hes hbefore]
          have hruns : ∀ g, TimerRuns chatId (es ++ [(u, TabEvent.reload)]) g ↔
              TimerRuns chatId es g ∧ g + typingDelay < u := by
            intro g
            rw [timerRuns_append, or_iff_left not_timerRuns_reload]
            simp
          constructor
          · rintro ⟨f, hf, hclear⟩
            refine ⟨f, List.mem_append_left _ hf, ?_⟩
            intro g hg _
            exact hclear g ((hruns g).mp hg).1 ((hruns g).mp hg).2
          · rintro ⟨f, hf, hclear⟩
            refine ⟨f, by simpa using hf, ?_⟩
            intro g hg hdue
            exact hclear g ((hruns g).mpr ⟨hg, hdue⟩) (hdue.trans_le hut)

/-- The events up to a moment come first. -/
theorem split_at (hsorted : es.Pairwise fun e e' => e.1 ≤ e'.1) (t : Nat) :
    ∃ later, es = es.filter (fun e => e.1 ≤ t) ++ later ∧ ∀ e ∈ later, t < e.1 := by
  induction es with
  | nil => exact ⟨[], rfl, fun _ he => absurd he List.not_mem_nil⟩
  | cons e es ih =>
      obtain ⟨hle, hes⟩ := List.pairwise_cons.mp hsorted
      by_cases he : e.1 ≤ t
      · obtain ⟨later, hsplit, hlater⟩ := ih hes
        refine ⟨later, ?_, hlater⟩
        rw [List.filter_cons, if_pos (decide_eq_true he), List.cons_append, ← hsplit]
      · have hnone : (e :: es).filter (fun e => e.1 ≤ t) = [] := by
          rw [List.filter_eq_nil_iff]
          intro e' he'
          rw [decide_eq_true_eq]
          rcases List.mem_cons.mp he' with rfl | he'
          · exact he
          · exact fun hle' => he ((hle e' he').trans hle')
        refine ⟨e :: es, by rw [hnone, List.nil_append], ?_⟩
        intro e' he'
        rcases List.mem_cons.mp he' with rfl | he'
        · exact Nat.lt_of_not_le he
        · exact (Nat.lt_of_not_le he).trans_le (hle e' he')

/-- A frame handled by `t` that no timer has followed by then. -/
def Uncleared (chatId : String) (es : List (Nat × TabEvent)) (t : Nat) : Prop :=
  ∃ f, (f, .typing chatId) ∈ es ∧ f ≤ t ∧
    ∀ g, TimerRuns chatId es g → g + typingDelay ≤ t → g + typingDelay < f

/-- **WHAT THE WINDOW SHOWS AT A MOMENT.** -/
theorem shows_stateAt {s : ChatStore} (hstart : s.typing.get? chatId ≠ some true)
    (hsorted : es.Pairwise fun e e' => e.1 ≤ e'.1) (t : Nat) :
    ((⟨s, []⟩ : Tab).stateAt es t).Shows chatId ↔ Uncleared chatId es t := by
  obtain ⟨later, hsplit, hlater⟩ := split_at hsorted t
  have hruns : ∀ g, g + typingDelay ≤ t →
      (TimerRuns chatId (es.filter fun e => e.1 ≤ t) g ↔ TimerRuns chatId es g) := by
    intro g hg
    conv_rhs => rw [hsplit]
    rw [timerRuns_append]
    constructor
    · intro hold
      exact Or.inl ⟨hold, fun r hr => hg.trans_lt (hlater _ hr)⟩
    · rintro (⟨hold, -⟩ | hnew)
      · exact hold
      · exact absurd (hlater _ hnew.typed) (Nat.not_lt.mpr ((Nat.le_add_right _ _).trans hg))
  rw [stateAt, shows_run hstart (hsorted.filter _) ?_]
  · refine exists_congr fun f => ?_
    rw [List.mem_filter, decide_eq_true_eq, and_assoc]
    refine and_congr_right fun _ => and_congr_right fun _ => forall_congr' fun g => ?_
    constructor
    · intro hclear hg hdue
      exact hclear ((hruns g hdue).mpr hg) (Nat.lt_succ_of_le hdue)
    · intro hclear hg hdue
      have hdue' := Nat.le_of_lt_succ hdue
      exact hclear ((hruns g hdue').mp hg) hdue'
  · intro e he
    exact Nat.le_succ_of_le (of_decide_eq_true (List.mem_filter.mp he).2)

end Tab

/-! ## The tab of a client -/

/-- The client of a tab: logged in, with an open socket. -/
structure Tab.Of (tab : Tab) (c : Client) : Prop where
  store : c.store = tab.store
  timers : c.typingTimers.Perm (tab.timers.map Prod.fst)
  auth : c.store.auth.isSome = true
  socket : ∃ ws, c.hook.isOpen ws = true

variable (getTime : String → Option Int) {tab : Tab} {c : Client}

/-- The timers that are due fire one after the other. -/
theorem run_timeouts (due rest : List (String × Nat))
    (h : c.typingTimers.Perm ((due ++ rest).map Prod.fst)) :
    ∃ c', c.run getTime (due.map fun e => .typingTimeout e.1) = some c' ∧
      c'.store = due.foldl (fun s e => s.setTyping e.1 false) c.store ∧
      c'.typingTimers.Perm (rest.map Prod.fst) ∧ c'.hook = c.hook := by
  induction due generalizing c with
  | nil => exact ⟨c, rfl, rfl, h, rfl⟩
  | cons e due ih =>
      have hmem : e.1 ∈ c.typingTimers := h.symm.subset List.mem_cons_self
      have hstep : c.step getTime (.typingTimeout e.1) = some { c with
          typingTimers := c.typingTimers.erase e.1
          store := c.store.setTyping e.1 false } := by
        rw [Client.step]
        exact if_pos hmem
      have hrest : (c.typingTimers.erase e.1).Perm ((due ++ rest).map Prod.fst) := by
        have herase := h.erase e.1
        rwa [List.cons_append, List.map_cons, List.erase_cons_head] at herase
      obtain ⟨c', hrun, hstore, htimers, hhook⟩ := ih (c := { c with
          typingTimers := c.typingTimers.erase e.1
          store := c.store.setTyping e.1 false }) hrest
      refine ⟨c', ?_, hstore, htimers, hhook⟩
      rw [List.map_cons, Client.run, hstep]
      exact hrun

theorem auth_clear (due : List (String × Nat)) (s : ChatStore) :
    (due.foldl (fun s e => s.setTyping e.1 false) s).auth = s.auth := by
  induction due generalizing s with
  | nil => rfl
  | cons e due ih => exact ih _

/-- The client follows when the timers of the tab expire. -/
theorem Tab.Of.expire (h : tab.Of c) (t : Nat) :
    ∃ es c', c.run getTime es = some c' ∧ (tab.expire t).Of c' := by
  have hparts : c.typingTimers.Perm (((tab.timers.filter fun e => e.2 < t) ++
      tab.timers.filter fun e => t ≤ e.2).map Prod.fst) := by
    refine h.timers.trans (List.Perm.map _ ?_)
    have hsplit := (List.filter_append_perm (fun e : String × Nat => e.2 < t) tab.timers).symm
    simpa only [← decide_not, Nat.not_lt] using hsplit
  obtain ⟨c', hrun, hstore, htimers, hhook⟩ := run_timeouts getTime _ _ hparts
  rw [h.store] at hstore
  refine ⟨_, c', hrun, hstore, htimers, ?_, ?_⟩
  · rw [hstore, auth_clear, ← h.store]
    exact h.auth
  · rw [hhook]
    exact h.socket

/-- What the tab does, the client does: a frame through its open socket, or a reload after
    which the socket opens again. -/
theorem Tab.Of.handle (h : tab.Of c) (t : Nat) (e : TabEvent) :
    ∃ es c', c.run getTime es = some c' ∧ (tab.handle t e).Of c' := by
  obtain ⟨es, mid, hrun, hmid⟩ := h.expire getTime t
  cases e with
  | typing chatId =>
      obtain ⟨ws, hopen⟩ := hmid.socket
      let shown : Client := { mid with
        store := mid.store.onmessage (.typing chatId)
        typingTimers := mid.typingTimers ++ [chatId] }
      have hstep : mid.step getTime (.frame ws (.typing chatId)) = some shown := by
        rw [Client.step]
        exact if_pos hopen
      refine ⟨es ++ [.frame ws (.typing chatId)], shown, ?_, ?_, ?_, hmid.auth, ws, hopen⟩
      · rw [Client.run_append, hrun, Option.bind_some, Client.run, hstep]
        rfl
      · show mid.store.onmessage (.typing chatId) = (tab.expire t).store.onmessage (.typing chatId)
        rw [hmid.store]
      · show (mid.typingTimers ++ [chatId]).Perm
          (((tab.expire t).timers ++ [(chatId, t + typingDelay)]).map Prod.fst)
        rw [List.map_append]
        exact hmid.timers.append_right _
  | reload =>
      let reloaded : Client := { mid with
        hook := Hook.fresh.effect
        window := none
        requests := []
        typingTimers := [] }
      have hreload : mid.step getTime .reload = some reloaded := by
        rw [Client.step, if_pos hmid.auth]
      obtain ⟨hook, hhook⟩ : ∃ hook, reloaded.hook.onopen 0 = some hook := ⟨_, rfl⟩
      let opened : Client :=
        ({ reloaded with hook := hook }).checkPresence 0 reloaded.store.dmMessages.ownKeys
      have hopened : reloaded.step getTime (.opened 0) = some opened := by
        rw [Client.step, hhook]
        rfl
      have hstore : opened.store = mid.store := Client.checkPresence_store _ _ _
      have hsame : opened.hook = hook := Client.checkPresence_hook _ _ _
      have htimers : opened.typingTimers = [] := by
        show (Client.checkPresence _ _ _).typingTimers = []
        rw [Client.checkPresence]
        split <;> rfl
      refine ⟨es ++ [.reload, .opened 0], opened, ?_, ?_, ?_, ?_, 0, ?_⟩
      · rw [Client.run_append, hrun, Option.bind_some, Client.run, hreload, Option.bind_some,
          Client.run, hopened]
        rfl
      · rw [hstore, hmid.store]
        rfl
      · rw [htimers]
        exact List.Perm.refl _
      · rw [hstore]
        exact hmid.auth
      · rw [hsame]
        exact Hook.isOpen_onopen hhook

/-- **EVERY TIMED SEQUENCE IS A RUN OF THE CLIENT.** -/
theorem Tab.Of.run (h : tab.Of c) (es : List (Nat × TabEvent)) :
    ∃ events c', c.run getTime events = some c' ∧ (tab.run es).Of c' := by
  induction es generalizing tab c with
  | nil => exact ⟨[], c, rfl, h⟩
  | cons e es ih =>
      obtain ⟨first, mid, hfirst, hmid⟩ := h.handle getTime e.1 e.2
      obtain ⟨rest, c', hrest, hof⟩ := ih hmid
      refine ⟨first ++ rest, c', ?_, hof⟩
      rw [Client.run_append, hfirst]
      exact hrest

/-! ## The key on the server -/

/-- The times of the typing frames for a chat, up to `t`. -/
def typedUpTo (chatId : String) (es : List (Nat × TabEvent)) (t : Nat) : List Nat :=
  (es.filter fun e => e.1 ≤ t ∧ e.2 = .typing chatId).map Prod.fst

/-- `SetTyping` once at each of these times. -/
def setTypingAt (env : Nat → Env) (chat user : UUID) (r : Redis) (times : List Nat) : Redis :=
  times.foldl (fun r t => (r.setTyping (env t) chat user).getD r) r

theorem mem_typedUpTo : f ∈ typedUpTo chatId es t ↔ (f, .typing chatId) ∈ es ∧ f ≤ t := by
  rw [typedUpTo, List.mem_map]
  constructor
  · rintro ⟨⟨f', e⟩, he, rfl⟩
    rw [List.mem_filter, decide_eq_true_eq] at he
    obtain ⟨hmem, hle, rfl⟩ := he
    exact ⟨hmem, hle⟩
  · rintro ⟨hmem, hle⟩
    refine ⟨(f, .typing chatId), ?_, rfl⟩
    rw [List.mem_filter, decide_eq_true_eq]
    exact ⟨hmem, hle, rfl⟩

/-- The typing frames up to a time come in order. -/
theorem typedUpTo_sorted (hsorted : es.Pairwise fun e e' => e.1 ≤ e'.1) (t : Nat) :
    (typedUpTo chatId es t).Pairwise (· ≤ ·) :=
  List.pairwise_map.mpr (hsorted.filter _)

/-- The last event decides when the key expires. -/
theorem alive_setTypingAt {env : Nat → Env} {chat user : UUID} {times : List Nat}
    (hnow : ∀ t, (env t).now = t) (hok : ∀ t, (env t).ok .setTyping = true)
    (hsorted : times.Pairwise (· ≤ ·)) (t : Nat) :
    (alive t ((setTypingAt env chat user Redis.empty times).typing (chat, user))).isSome = true ↔
      ∃ f ∈ times, t < f + typingTTL := by
  rcases List.eq_nil_or_concat' times with rfl | ⟨earlier, last, rfl⟩
  · refine iff_of_false Bool.false_ne_true ?_
    rintro ⟨f, hf, -⟩
    exact List.not_mem_nil hf
  · have hkey : (setTypingAt env chat user Redis.empty (earlier ++ [last])).typing (chat, user)
        = some ⟨"1", some (last + typingTTL)⟩ := by
      rw [setTypingAt, List.foldl_append, List.foldl_cons, List.foldl_nil, Redis.setTyping,
        if_pos (hok last), hnow, Option.getD_some]
      exact Function.update_self ..
    rw [hkey]
    constructor
    · intro halive
      refine ⟨last, List.mem_concat_self, ?_⟩
      by_contra hlate
      rw [alive_of_le _ (Nat.le_of_not_lt hlate)] at halive
      exact Bool.false_ne_true halive
    · rintro ⟨f, hf, hlt⟩
      have hle : f ≤ last := by
        rcases List.mem_append.mp hf with hf | hf
        · exact (List.pairwise_append.mp hsorted).2.2 f hf _ (List.mem_singleton_self _)
        · rw [List.mem_singleton.mp hf]
      rw [alive_of_lt _ (hlt.trans_le (Nat.add_le_add_right hle _))]
      rfl

/-- The key lives exactly while there was a typing event within the five seconds before. -/
theorem alive_iff_typedWithin {env : Nat → Env} {chat user : UUID}
    (hnow : ∀ t, (env t).now = t) (hok : ∀ t, (env t).ok .setTyping = true)
    (hsorted : es.Pairwise fun e e' => e.1 ≤ e'.1) (t : Nat) :
    (alive t ((setTypingAt env chat user Redis.empty (typedUpTo chatId es t)).typing
      (chat, user))).isSome = true ↔ TypedWithin chatId es t := by
  rw [alive_setTypingAt hnow hok (typedUpTo_sorted hsorted t)]
  simp only [mem_typedUpTo, TypedWithin, and_assoc]
  rfl

/-! ## When the indicator is right -/

/-- Timer by timer: it runs exactly if no frame renews the indicator before. -/
def EachTimerRight (chatId : String) (es : List (Nat × TabEvent)) : Prop :=
  ∀ f, (f, .typing chatId) ∈ es →
    (TimerRuns chatId es f ↔
      ∀ g, (g, .typing chatId) ∈ es → f < g → f + typingDelay < g)

/-- The last frame of a chat up to `t`, if there is one. -/
theorem exists_last (hf : (f, .typing chatId) ∈ es) (hft : f ≤ t) :
    ∃ m, (m, .typing chatId) ∈ es ∧ m ≤ t ∧ f ≤ m ∧
      ∀ g, (g, .typing chatId) ∈ es → g ≤ t → g ≤ m := by
  refine ⟨Nat.findGreatest (fun m => (m, TabEvent.typing chatId) ∈ es) t, ?_, ?_, ?_, ?_⟩
  · exact Nat.findGreatest_spec (P := fun m => (m, TabEvent.typing chatId) ∈ es) hft hf
  · exact Nat.findGreatest_le t
  · exact Nat.le_findGreatest hft hf
  · intro g hg hgt
    exact Nat.le_findGreatest hgt hg

/-- If the indicator is right at every moment, so is each timer. -/
theorem eachTimerRight_of_shows
    (hright : ∀ t, Tab.Uncleared chatId es t ↔ TypedWithin chatId es t) :
    EachTimerRight chatId es := by
  -- when a timer runs, the frames within its five seconds should still show
  have hrenewed : ∀ f, TimerRuns chatId es f →
      ∀ g, (g, .typing chatId) ∈ es → f < g → f + typingDelay < g := by
    intro f hruns g hg hfg
    by_contra hle
    have hwithin : TypedWithin chatId es (f + typingDelay) :=
      ⟨g, hg, Nat.le_of_not_lt hle, Nat.add_lt_add_right hfg _⟩
    obtain ⟨f', -, hf', hclear⟩ := (hright _).mpr hwithin
    exact absurd (hclear f hruns le_rfl) (Nat.not_lt.mpr hf')
  intro f hf
  refine ⟨hrenewed f, ?_⟩
  intro hlast
  by_contra hruns
  -- and without it the last frame would show when it should not
  have hnot : ¬ TypedWithin chatId es (f + typingDelay) := by
    rintro ⟨g, hg, hle, hlt⟩
    exact absurd (hlast g hg (Nat.lt_of_add_lt_add_right hlt)) (Nat.not_lt.mpr hle)
  refine hnot ((hright _).mp ⟨f, hf, Nat.le_add_right _ _, ?_⟩)
  intro g hg hdue
  have hgf : g ≤ f := Nat.le_of_add_le_add_right hdue
  have hne : g ≠ f := fun heq => hruns (heq ▸ hg)
  exact hrenewed g hg f hf (Nat.lt_of_le_of_ne hgf hne)

/-- If each timer is right, so is the indicator. -/
theorem shows_of_eachTimerRight (hright : EachTimerRight chatId es) (t : Nat) :
    Tab.Uncleared chatId es t ↔ TypedWithin chatId es t := by
  constructor
  · rintro ⟨f, hf, hft, hclear⟩
    -- the timer of the last frame runs, so it is not due yet
    obtain ⟨m, hm, hmt, hfm, hlast⟩ := exists_last hf hft
    refine ⟨m, hm, hmt, ?_⟩
    by_contra hdue
    have hdue' := Nat.le_of_not_lt hdue
    have hruns : TimerRuns chatId es m := by
      rw [hright m hm]
      intro g hg hmg
      by_contra hle
      have hgm := hlast g hg ((Nat.le_of_not_lt hle).trans hdue')
      exact absurd hmg (Nat.not_lt.mpr hgm)
    have hlt := hclear m hruns hdue'
    exact absurd ((Nat.le_add_right m _).trans_lt hlt) (Nat.not_lt.mpr hfm)
  · rintro ⟨f, hf, hft, hlt⟩
    refine ⟨f, hf, hft, ?_⟩
    intro g hg hdue
    have hgf : g < f := Nat.lt_of_add_lt_add_right (hdue.trans_lt hlt)
    exact (hright g hg.typed).mp hg f hf hgf

/-- The indicator is right, and agrees with the key, exactly if each timer is right. -/
theorem indicator_right_iff {s : ChatStore} {env : Nat → Env} {chat user : UUID}
    (hstart : s.typing.get? chatId ≠ some true)
    (hsorted : es.Pairwise fun e e' => e.1 ≤ e'.1)
    (hnow : ∀ t, (env t).now = t) (hok : ∀ t, (env t).ok .setTyping = true) :
    (∀ t, (((⟨s, []⟩ : Tab).stateAt es t).Shows chatId ↔ TypedWithin chatId es t) ∧
      ((alive t ((setTypingAt env chat user Redis.empty (typedUpTo chatId es t)).typing
        (chat, user))).isSome = true ↔ TypedWithin chatId es t)) ↔
      EachTimerRight chatId es := by
  have hshows := Tab.shows_stateAt hstart hsorted
  constructor
  · intro hright
    exact eachTimerRight_of_shows fun t => (hshows t).symm.trans (hright t).1
  · intro hright t
    exact ⟨(hshows t).trans (shows_of_eachTimerRight hright t),
      alive_iff_typedWithin hnow hok hsorted t⟩

/-- A second frame is cleared by the first one's timer, and what a reload finds set stays
    set. -/
theorem indicator_wrong :
    (TypedWithin "a" [(0, .typing "a"), (3000, .typing "a")] 5000 ∧
      ¬ ((⟨ChatStore.initial, []⟩ : Tab).stateAt
        [(0, .typing "a"), (3000, .typing "a")] 5000).Shows "a") ∧
    ¬ TypedWithin "a" [(0, .typing "a"), (1000, .reload)] 5000 ∧
      ((⟨ChatStore.initial, []⟩ : Tab).stateAt
        [(0, .typing "a"), (1000, .reload)] 5000).Shows "a" := by
  refine ⟨⟨⟨3000, by decide, by decide, by decide⟩, by decide +kernel⟩, ?_, by decide +kernel⟩
  rintro ⟨f, hf, -, hlt⟩
  rcases List.mem_cons.mp hf with heq | hf
  · cases heq
    exact absurd hlt (by decide)
  · cases List.mem_singleton.mp hf

/-- Frames far enough apart, and a reload after the last timer. -/
def apart : List (Nat × TabEvent) :=
  [(0, .typing "a"), (6000, .typing "a"), (12000, .reload)]

theorem eachTimerRight_apart : EachTimerRight "a" apart := by
  intro f hf
  simp only [apart, List.mem_cons, Prod.mk.injEq, and_true, reduceCtorEq, and_false,
    List.not_mem_nil, or_false] at hf
  have hreload : ∀ r, (r, TabEvent.reload) ∈ [(12000, TabEvent.reload)] → r = 12000 := by simp
  rcases hf with rfl | rfl
  · refine iff_of_true ⟨[], [(6000, .typing "a"), (12000, .reload)], rfl, ?_⟩ ?_
    · intro r hr
      rw [hreload r (by simpa using hr)]
      decide
    · simp [apart, typingDelay]
  · refine iff_of_true ⟨[(0, .typing "a")], [(12000, .reload)], rfl, ?_⟩ ?_
    · intro r hr
      rw [hreload r hr]
      decide
    · simp [apart, typingDelay]

theorem indicator_right_apart : EachTimerRight "a" apart ∧
    ∀ t, (((⟨ChatStore.initial, []⟩ : Tab).stateAt apart t).Shows "a" ↔
        TypedWithin "a" apart t) ∧
      ((alive t ((setTypingAt (Env.fine ⟨10⟩ ⟨20⟩) ⟨10⟩ ⟨2⟩ Redis.empty
        (typedUpTo "a" apart t)).typing (⟨10⟩, ⟨2⟩))).isSome = true ↔
        TypedWithin "a" apart t) :=
  ⟨eachTimerRight_apart, (indicator_right_iff (by decide) (by decide) (fun _ => rfl)
    fun _ => rfl).mpr eachTimerRight_apart⟩

end PeerWeb
