import PeerChat.WebClientProofs

/-! # The ack effect of `ChatWindow.tsx`

    The effect iterates over the list its render closed over, and every ack it
    passes to `send` updates the store, which renders the window and runs the effect
    again.  In between anything may happen to the store, and the window may be given
    another partner.

    The set of acked ids only grows, so no id is acked twice; and a run whose list
    is up to date leaves nothing for the next one, so the effect comes to rest. -/

namespace PeerWeb

/-- A mounted window as its ack effect sees it: the store, the partner and the list of
    its last render, the ref, and what was passed to `send`. -/
structure AckWindow where
  store : ChatStore
  partnerId : String
  messages : List Message
  ackedIds : List String
  passed : List OutFrame

/-- What happens to the window. -/
inductive AckEvent where
  /-- The store changes: arrivals, statuses, a history merge. -/
  | changed (store : ChatStore)
  | rendered (partnerId : String)
  | effect

namespace AckWindow

open Client (toAck)

/-- The first render of a window whose ref holds `ackedIds`. -/
def mounted (store : ChatStore) (partnerId : String) (ackedIds : List String) : AckWindow :=
  ⟨store, partnerId, store.conversation partnerId, ackedIds, []⟩

/-- The body of `messages.forEach`. -/
def visit (s : AckWindow) (m : Message) : AckWindow :=
  if m.mine = false ∧ m.status ≠ .read ∧ m.id ∉ s.ackedIds then
    { s with
      ackedIds := s.ackedIds ++ [m.id]
      passed := s.passed ++ [.ack m.id s.partnerId]
      store := s.store.updateDMMessageStatus s.partnerId m.id .read }
  else s

/-- The effect, over the list of the last render. -/
def effect (s : AckWindow) : AckWindow := s.messages.foldl visit s

def render (s : AckWindow) (partnerId : String) : AckWindow :=
  { s with partnerId := partnerId, messages := s.store.conversation partnerId }

def after (s : AckWindow) : AckEvent → AckWindow
  | .changed store => { s with store := store }
  | .rendered partnerId => s.render partnerId
  | .effect => s.effect

def run (s : AckWindow) (es : List AckEvent) : AckWindow := es.foldl after s

/-- The message id of an ack. -/
def ackedId : OutFrame → Option String
  | .ack messageID _ => some messageID
  | _ => none

/-- The ids of the acks that were passed to `send`, in order. -/
def passedIds (s : AckWindow) : List String := s.passed.filterMap ackedId

/-- **A run and what it causes**: a run that updates the store renders the window,
    and the effect runs again. -/
inductive Settles : AckWindow → AckWindow → Prop where
  | rest {s : AckWindow} (h : s.effect.passed = s.passed) : Settles s s.effect
  | again {s t : AckWindow} (h : s.effect.passed ≠ s.passed)
      (hrest : Settles (s.effect.render s.partnerId) t) : Settles s t

/-- A partner's message that has not been read. -/
def Unread (m : Message) : Prop := m.mine = false ∧ m.status ≠ .read

instance (m : Message) : Decidable (Unread m) := inferInstanceAs (Decidable (_ ∧ _))

/-- **What the acks of a lifetime are**: one for each id that some run saw on a
    partner's unread message, if it was not acked already; at its turn, a message gets
    an ack exactly if it is such a one. -/
structure AckedOnce (s₀ : AckWindow) (es : List AckEvent) : Prop where
  once : (s₀.run es).passedIds.Nodup
  seen : ∀ id, id ∈ (s₀.run es).passedIds ↔ id ∉ s₀.ackedIds ∧
    ∃ before later, es = before ++ .effect :: later ∧
      ∃ m ∈ (s₀.run before).messages, m.id = id ∧ Unread m
  turn : ∀ before later, es = before ++ .effect :: later →
    ∀ ms m rest, (s₀.run before).messages = ms ++ m :: rest →
      ((ms ++ [m]).foldl visit (s₀.run before)).passed
        = (ms.foldl visit (s₀.run before)).passed ++
          if Unread m ∧ m.id ∉ s₀.ackedIds ∧
              m.id ∉ (ms.foldl visit (s₀.run before)).passedIds
            then [.ack m.id (s₀.run before).partnerId] else []

/-! ## The ids a run acks -/

/-- Only membership in the acked ids matters. -/
theorem toAck_congr {acked acked' : List String} (h : ∀ id, id ∈ acked ↔ id ∈ acked')
    (msgs : List Message) : toAck acked msgs = toAck acked' msgs := by
  induction msgs generalizing acked acked' with
  | nil => rfl
  | cons m ms ih =>
      have hcons : ∀ id, id ∈ m.id :: acked ↔ id ∈ m.id :: acked' := by
        intro id
        rw [List.mem_cons, List.mem_cons, h id]
      rw [toAck, toAck, ih h, ih hcons]
      simp only [h m.id]

/-- An id is acked if it was not yet, and a shown message of it is unread. -/
theorem mem_toAck_iff {acked : List String} {msgs : List Message} {id : String} :
    id ∈ toAck acked msgs ↔ id ∉ acked ∧ ∃ m ∈ msgs, m.id = id ∧ Unread m := by
  induction msgs generalizing acked with
  | nil => simp [toAck]
  | cons m ms ih =>
      simp only [toAck, Unread] at ih ⊢
      by_cases hm : !m.mine ∧ m.status ≠ .read ∧ m.id ∉ acked
      · rw [if_pos hm, List.mem_cons, ih]
        simp only [Bool.not_eq_true'] at hm
        by_cases hid : id = m.id
        · rw [hid]
          exact iff_of_true (Or.inl rfl)
            ⟨hm.2.2, m, List.mem_cons_self, rfl, hm.1, hm.2.1⟩
        · have hne : ¬ m.id = id := fun heq => hid heq.symm
          simp [hid, hne]
      · rw [if_neg hm, ih]
        refine and_congr_right fun hid => ?_
        constructor
        · rintro ⟨m', hm', hrest⟩
          exact ⟨m', List.mem_cons_of_mem _ hm', hrest⟩
        · rintro ⟨m', hm', rfl, hmine, hst⟩
          rcases List.mem_cons.mp hm' with rfl | hin
          · refine absurd ⟨?_, hst, hid⟩ hm
            rw [hmine]
            rfl
          · exact ⟨m', hin, rfl, hmine, hst⟩

/-- An id is acked once. -/
theorem toAck_nodup (acked : List String) (msgs : List Message) :
    (toAck acked msgs).Nodup := by
  induction msgs generalizing acked with
  | nil => exact List.nodup_nil
  | cons m ms ih =>
      rw [toAck]
      split
      · refine List.nodup_cons.mpr ⟨?_, ih _⟩
        intro hin
        exact (mem_toAck_iff.mp hin).1 List.mem_cons_self
      · exact ih _

/-- **The iteration**: the acks in order, and a store update for each. -/
theorem foldl_visit (s : AckWindow) (msgs : List Message) :
    msgs.foldl visit s = { s with
      ackedIds := s.ackedIds ++ toAck s.ackedIds msgs
      passed := s.passed ++ (toAck s.ackedIds msgs).map fun id => .ack id s.partnerId
      store := (toAck s.ackedIds msgs).foldl
        (fun st id => st.updateDMMessageStatus s.partnerId id .read) s.store } := by
  induction msgs generalizing s with
  | nil => simp [toAck]
  | cons m ms ih =>
      rw [List.foldl_cons, ih, visit]
      by_cases hm : m.mine = false ∧ m.status ≠ .read ∧ m.id ∉ s.ackedIds
      · -- the ref grows at its end, where `toAck` collects at the front
        have hcongr : toAck (s.ackedIds ++ [m.id]) ms = toAck (m.id :: s.ackedIds) ms := by
          refine toAck_congr (fun id => ?_) ms
          rw [List.mem_append, List.mem_singleton, List.mem_cons, or_comm]
        have htest : !m.mine ∧ m.status ≠ .read ∧ m.id ∉ s.ackedIds := by simpa using hm
        simp only [if_pos hm, toAck, if_pos htest, hcongr, List.map_cons, List.foldl_cons,
          List.append_assoc, List.singleton_append]
      · have htest : ¬ (!m.mine ∧ m.status ≠ .read ∧ m.id ∉ s.ackedIds) := by simpa using hm
        simp only [if_neg hm, toAck, if_neg htest]

/-- The window of `Client.ackEffect` is one whose list is up to date. -/
theorem ackEffect_eq (c : Client) (w : ChatWindow) :
    (c.ackEffect w).store = (mounted c.store w.partnerId w.ackedIds).effect.store ∧
      (c.ackEffect w).window
        = some { w with ackedIds := (mounted c.store w.partnerId w.ackedIds).effect.ackedIds } := by
  rw [effect, foldl_visit]
  exact ⟨Client.ackAll_store w.partnerId c _, rfl⟩

theorem passedIds_foldl (s : AckWindow) (msgs : List Message) :
    (msgs.foldl visit s).passedIds = s.passedIds ++ toAck s.ackedIds msgs := by
  rw [foldl_visit, passedIds, List.filterMap_append, List.filterMap_map]
  congr 1
  exact List.filterMap_some

/-! ## The effect comes to rest -/

/-- Marking messages as read changes nothing else about them. -/
theorem mem_conversation_marked {ids : List String} {st : ChatStore} {p : String}
    {m' : Message}
    (h : m' ∈ (ids.foldl (fun st id => st.updateDMMessageStatus p id .read) st).conversation p) :
    ∃ m ∈ st.conversation p, m.id = m'.id ∧ m.mine = m'.mine ∧
      (m'.status = .read ∨ m' = m) := by
  induction ids generalizing st with
  | nil => exact ⟨m', h, rfl, rfl, Or.inr rfl⟩
  | cons id ids ih =>
      obtain ⟨m₁, hm₁, hid, hmine, hst⟩ := ih h
      rw [ChatStore.conversation_updateDMMessageStatus, if_pos rfl] at hm₁
      obtain ⟨m, hm, rfl⟩ := List.mem_map.mp hm₁
      refine ⟨m, hm, ?_⟩
      rw [← hid, ← hmine, ChatStore.mark]
      split
      · rename_i hmark
        refine ⟨rfl, rfl, Or.inl ?_⟩
        rcases hst with hread | heq
        · exact hread
        · rw [heq, ChatStore.mark, if_pos hmark]
      · rename_i hmark
        refine ⟨rfl, rfl, ?_⟩
        rw [ChatStore.mark, if_neg hmark] at hst
        exact hst

/-- A run that passes no ack changes nothing. -/
theorem effect_of_rest {s : AckWindow} (h : s.effect.passed = s.passed) : s.effect = s := by
  have hnone : toAck s.ackedIds s.messages = [] := by
    rw [effect, foldl_visit] at h
    simpa using h
  rw [effect, foldl_visit, hnone]
  simp

/-- Once a run had the list of the store, the next one finds nothing to ack. -/
theorem rest_of_fresh {s : AckWindow} (hfresh : s.messages = s.store.conversation s.partnerId) :
    (s.effect.render s.partnerId).effect.passed = (s.effect.render s.partnerId).passed := by
  have hnone : toAck (s.effect.render s.partnerId).ackedIds
      (s.effect.render s.partnerId).messages = [] := by
    refine List.eq_nil_iff_forall_not_mem.mpr fun id hin => ?_
    obtain ⟨hnew, m', hm', hid, hmine, hst⟩ := mem_toAck_iff.mp hin
    simp only [render, effect, foldl_visit] at hnew hm'
    rw [List.mem_append, not_or] at hnew
    obtain ⟨m, hm, hmid, hmmine, hread | heq⟩ := mem_conversation_marked hm'
    · exact hst hread
    · -- it was unread before the run, so the run has acked it
      rw [heq] at hid hmine hst
      rw [← hfresh] at hm
      exact hnew.2 (mem_toAck_iff.mpr ⟨hnew.1, m, hm, hid, hmine, hst⟩)
  rw [effect, foldl_visit, hnone]
  exact List.append_nil _

/-- **THE EFFECT COMES TO REST**, from any state: with a stale list after at most two
    more renders, and then a further run changes nothing. -/
theorem settles (s : AckWindow) : ∃ t, Settles s t ∧ t.effect = t := by
  have hrest : ∀ u : AckWindow, u.effect.passed = u.passed →
      Settles u u.effect ∧ u.effect.effect = u.effect := by
    intro u hu
    refine ⟨.rest hu, ?_⟩
    rw [effect_of_rest hu, effect_of_rest hu]
  by_cases h₀ : s.effect.passed = s.passed
  · exact ⟨_, hrest s h₀⟩
  · -- the second render has the list of the store
    have h₂ := rest_of_fresh (s := s.effect.render s.partnerId) rfl
    by_cases h₁ : (s.effect.render s.partnerId).effect.passed
        = (s.effect.render s.partnerId).passed
    · obtain ⟨hs, hstill⟩ := hrest _ h₁
      exact ⟨_, .again h₀ hs, hstill⟩
    · obtain ⟨hs, hstill⟩ := hrest _ h₂
      exact ⟨_, .again h₀ (.again h₁ hs), hstill⟩

/-! ## A lifetime -/

/-- What the ref holds is what it held at first, and what was passed to `send`. -/
def Recorded (acked : List String) (s : AckWindow) : Prop :=
  s.ackedIds = acked ++ s.passedIds

/-- Going over a list keeps the record of what was passed on. -/
theorem recorded_foldl {acked : List String} {s : AckWindow} (h : Recorded acked s)
    (msgs : List Message) : Recorded acked (msgs.foldl visit s) := by
  rw [Recorded, passedIds_foldl, ← List.append_assoc, ← h, foldl_visit]

/-- Every event keeps the record. -/
theorem recorded_after {acked : List String} {s : AckWindow} (h : Recorded acked s)
    (e : AckEvent) : Recorded acked (s.after e) := by
  cases e with
  | changed store => exact h
  | rendered partnerId => exact h
  | effect => exact recorded_foldl h s.messages

theorem run_snoc (s : AckWindow) (es : List AckEvent) (e : AckEvent) :
    s.run (es ++ [e]) = (s.run es).after e := by
  rw [run, List.foldl_append]
  rfl

/-- The record is kept all along a run. -/
theorem recorded_run {s : AckWindow} (h : s.passed = []) (es : List AckEvent) :
    Recorded s.ackedIds (s.run es) := by
  induction es using List.reverseRecOn with
  | nil =>
      show s.ackedIds = s.ackedIds ++ s.passed.filterMap ackedId
      rw [h, List.filterMap_nil, List.append_nil]
  | append_singleton es e ih =>
      rw [run_snoc]
      exact recorded_after ih e

/-- Some run of `es` saw the id on a partner's unread message. -/
def SeenBy (s₀ : AckWindow) (es : List AckEvent) (id : String) : Prop :=
  ∃ before later, es = before ++ .effect :: later ∧
    ∃ m ∈ (s₀.run before).messages, m.id = id ∧ Unread m

/-- One more event: a run sees what is in its list. -/
theorem seenBy_snoc (s₀ : AckWindow) (es : List AckEvent) (e : AckEvent) (id : String) :
    SeenBy s₀ (es ++ [e]) id ↔ SeenBy s₀ es id ∨
      (e = .effect ∧ ∃ m ∈ (s₀.run es).messages, m.id = id ∧ Unread m) := by
  constructor
  · rintro ⟨before, later, heq, hm⟩
    rcases List.eq_nil_or_concat later with rfl | ⟨later, last, rfl⟩
    · obtain ⟨hes, he⟩ := List.append_inj' heq rfl
      rw [hes, (List.cons.inj he).1]
      exact Or.inr ⟨rfl, hm⟩
    · rw [List.concat_eq_append, ← List.cons_append, ← List.append_assoc] at heq
      exact Or.inl ⟨before, later, (List.append_inj' heq rfl).1, hm⟩
  · rintro (⟨before, later, rfl, hm⟩ | ⟨rfl, hm⟩)
    · exact ⟨before, later ++ [e], by rw [List.append_assoc, List.cons_append], hm⟩
    · exact ⟨es, [], rfl, hm⟩

/-- What one event adds to the acks. -/
theorem passedIds_after (s : AckWindow) (e : AckEvent) :
    ((s.after e).passedIds = s.passedIds ∧ e ≠ .effect) ∨
      (e = .effect ∧ (s.after e).passedIds = s.passedIds ++ toAck s.ackedIds s.messages) := by
  cases e with
  | changed store => exact Or.inl ⟨rfl, fun hbad => by cases hbad⟩
  | rendered partnerId => exact Or.inl ⟨rfl, fun hbad => by cases hbad⟩
  | effect => exact Or.inr ⟨rfl, passedIds_foldl s s.messages⟩

/-- What a run passes on it passes once, and is what it has seen. -/
theorem passedIds_run {s₀ : AckWindow} (h : s₀.passed = []) (es : List AckEvent) :
    (s₀.run es).passedIds.Nodup ∧
      ∀ id, id ∈ (s₀.run es).passedIds ↔ id ∉ s₀.ackedIds ∧ SeenBy s₀ es id := by
  induction es using List.reverseRecOn with
  | nil =>
      have hnone : (s₀.run []).passedIds = [] := by
        show s₀.passed.filterMap ackedId = []
        rw [h, List.filterMap_nil]
      rw [hnone]
      refine ⟨List.nodup_nil, fun id => iff_of_false List.not_mem_nil ?_⟩
      rintro ⟨-, before, later, heq, -⟩
      exact List.cons_ne_nil _ _ (List.append_eq_nil_iff.mp heq.symm).2
  | append_singleton es e ih =>
      obtain ⟨hnodup, hmem⟩ := ih
      have hrec := recorded_run h es
      rw [run_snoc]
      rcases passedIds_after (s₀.run es) e with ⟨hsame, hne⟩ | ⟨rfl, hmore⟩
      · rw [hsame]
        refine ⟨hnodup, fun id => ?_⟩
        rw [hmem id, seenBy_snoc]
        refine and_congr_right fun _ => ⟨Or.inl, ?_⟩
        rintro (hseen | ⟨hbad, -⟩)
        · exact hseen
        · exact absurd hbad hne
      · rw [hmore]
        refine ⟨List.nodup_append.mpr ⟨hnodup, toAck_nodup _ _, ?_⟩, fun id => ?_⟩
        · -- a run acks only what the ref does not hold
          intro id hid id' hid' heq
          refine (mem_toAck_iff.mp hid').1 ?_
          rw [hrec, ← heq]
          exact List.mem_append_right _ hid
        · rw [List.mem_append, hmem id, seenBy_snoc, mem_toAck_iff, hrec, List.mem_append,
            hmem id]
          tauto

/-- **READ ACKS**: from any list and any acked ids, through any changes of the store and
    of the partner, an id is acked at most once, exactly the unread messages of the
    partner that a run sees are acked, and at any time the effect comes to rest. -/
theorem acks_once (store : ChatStore) (partnerId : String) (ackedIds : List String)
    (es : List AckEvent) :
    AckedOnce (mounted store partnerId ackedIds) es ∧
      ∃ t, Settles ((mounted store partnerId ackedIds).run es) t ∧ t.effect = t := by
  have hmounted : (mounted store partnerId ackedIds).passed = [] := rfl
  obtain ⟨hnodup, hmem⟩ := passedIds_run hmounted es
  refine ⟨⟨hnodup, hmem, ?_⟩, settles _⟩
  intro before later _ ms m rest _
  have hrec := recorded_foldl (recorded_run hmounted before) ms
  have hpartner : (ms.foldl visit ((mounted store partnerId ackedIds).run before)).partnerId
      = ((mounted store partnerId ackedIds).run before).partnerId := by
    rw [foldl_visit]
  -- the ref holds what it held at first and what has been passed since
  have hturn : (m.mine = false ∧ m.status ≠ .read ∧
      m.id ∉ (ms.foldl visit ((mounted store partnerId ackedIds).run before)).ackedIds) ↔
      Unread m ∧ m.id ∉ (mounted store partnerId ackedIds).ackedIds ∧
        m.id ∉ (ms.foldl visit ((mounted store partnerId ackedIds).run before)).passedIds := by
    rw [hrec, List.mem_append, not_or, Unread, and_assoc]
  rw [List.foldl_append, List.foldl_cons, List.foldl_nil, visit]
  by_cases hm : Unread m ∧ m.id ∉ (mounted store partnerId ackedIds).ackedIds ∧
      m.id ∉ (ms.foldl visit ((mounted store partnerId ackedIds).run before)).passedIds
  · rw [if_pos (hturn.mpr hm), if_pos hm, ← hpartner]
  · rw [if_neg fun hbad => hm (hturn.mp hbad), if_neg hm, List.append_nil]

end AckWindow

end PeerWeb
