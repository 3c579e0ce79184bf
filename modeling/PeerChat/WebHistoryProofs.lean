import PeerChat.StableSortProofs
import PeerChat.WebStoreProofs

/-! # The history merge of `store.ts`

    `setDMHistory` filters, concatenates and sorts.  With valid timestamps its
    comparator is the order of the times, the sort is stable, and the server's
    history is in order already: so the server's messages come out as they went
    in, and merging the same history again changes nothing. -/

namespace PeerWeb

namespace ChatStore

open StableSort

/-- Every timestamp is a date. -/
def Dated (getTime : String → Option Int) (msgs : List Message) : Prop :=
  ∀ m ∈ msgs, (getTime m.timestamp).isSome = true

/-- The timestamps do not decrease. -/
def Chronological (getTime : String → Option Int) (msgs : List Message) : Prop :=
  msgs.Pairwise fun a b =>
    ∀ x ∈ getTime a.timestamp, ∀ y ∈ getTime b.timestamp, x ≤ y

instance (getTime : String → Option Int) (msgs : List Message) :
    Decidable (Dated getTime msgs) :=
  inferInstanceAs (Decidable (∀ _ ∈ _, _))

instance (getTime : String → Option Int) (msgs : List Message) :
    Decidable (Chronological getTime msgs) :=
  inferInstanceAs (Decidable (List.Pairwise _ _))

/-- `serverIds.has(m.id)`. -/
def fromServer (msgs : List Message) (m : Message) : Bool := m.id ∈ msgs.map Message.id

/-- The local entries whose id is not in the history. -/
def localOnly (s : ChatStore) (k : String) (msgs : List Message) : List Message :=
  (s.conversation k).filter fun m => !fromServer msgs m

/-- **What a merge of the history `msgs` into the conversation is.** -/
structure Merged (getTime : String → Option Int) (s : ChatStore) (k : String)
    (msgs merged : List Message) : Prop where
  sorted : Chronological getTime merged
  entries : merged.Perm (msgs ++ s.localOnly k msgs)
  serverOrder : merged.filter (fromServer msgs) = msgs
  localOrder : ∀ t, merged.filter (fun m => !fromServer msgs m && getTime m.timestamp = some t)
    = (s.localOnly k msgs).filter fun m => getTime m.timestamp = some t

/-! ## The comparator -/

/-- The key of the sort; only dated messages have one of their own. -/
def timeOf (getTime : String → Option Int) (m : Message) : Int :=
  (getTime m.timestamp).getD 0

theorem getTime_eq_timeOf {getTime : String → Option Int} {m : Message}
    (h : (getTime m.timestamp).isSome = true) :
    getTime m.timestamp = some (timeOf getTime m) := by
  obtain ⟨x, hx⟩ := Option.isSome_iff_exists.mp h
  rw [timeOf, hx]
  rfl

/-- Dated messages are in order exactly when their times are. -/
theorem chronological_iff {getTime : String → Option Int} {msgs : List Message}
    (hd : Dated getTime msgs) : Chronological getTime msgs ↔
      msgs.Pairwise fun a b => timeOf getTime a ≤ timeOf getTime b := by
  refine List.Pairwise.iff_of_mem ?_
  intro a b ha hb
  rw [getTime_eq_timeOf (hd a ha), getTime_eq_timeOf (hd b hb)]
  simp

/-- On dates the sort of `setDMHistory` is the sort by time. -/
theorem mergeSort_eq_sortBy {getTime : String → Option Int} {l : List Message}
    (hd : Dated getTime l) :
    l.mergeSort (notAfter getTime) = sortBy (timeOf getTime) l := by
  have h := List.map_mergeSort (f := id) (l := l) (r := notAfter getTime)
    (s := fun a b => decide (timeOf getTime a ≤ timeOf getTime b)) ?_
  · rw [List.map_id, List.map_id] at h
    exact h
  · intro a ha b hb
    rw [notAfter, getTime_eq_timeOf (hd a ha), getTime_eq_timeOf (hd b hb)]
    rfl

/-! ## The merge -/

theorem fromServer_of_mem {msgs : List Message} {m : Message} (h : m ∈ msgs) :
    fromServer msgs m = true :=
  decide_eq_true (List.mem_map_of_mem h)

/-- An entry of one's own is not in the answer. -/
theorem not_fromServer_of_mem_localOnly {s : ChatStore} {k : String} {msgs : List Message}
    {m : Message} (h : m ∈ s.localOnly k msgs) : fromServer msgs m = false := by
  have hnot := (List.mem_filter.mp h).2
  rw [Bool.not_eq_true'] at hnot
  exact hnot

/-- A merge of dated messages is dated. -/
theorem dated_merge {getTime : String → Option Int} {s : ChatStore} {k : String}
    {msgs : List Message} (hd : Dated getTime (msgs ++ s.conversation k)) :
    Dated getTime (msgs ++ s.localOnly k msgs) := by
  intro m hm
  rcases List.mem_append.mp hm with hin | hin
  · exact hd m (List.mem_append_left _ hin)
  · exact hd m (List.mem_append_right _ (List.mem_of_mem_filter hin))

/-- The conversation after the merge. -/
theorem conversation_setDMHistory {getTime : String → Option Int} {s : ChatStore}
    {k : String} {msgs : List Message} (hd : Dated getTime (msgs ++ s.conversation k)) :
    (s.setDMHistory getTime k msgs).conversation k
      = sortBy (timeOf getTime) (msgs ++ s.localOnly k msgs) := by
  rw [← mergeSort_eq_sortBy (dated_merge hd), setDMHistory, conversation_setConversation_self]
  congr 2
  refine List.filter_congr fun m _ => ?_
  rw [fromServer, decide_not]

/-- Only the history passes the test for the server's ids. -/
theorem filter_fromServer (s : ChatStore) (k : String) (msgs : List Message) :
    (msgs ++ s.localOnly k msgs).filter (fromServer msgs) = msgs := by
  rw [List.filter_append, List.filter_eq_self.mpr fun m hm => fromServer_of_mem hm,
    List.filter_eq_nil_iff.mpr, List.append_nil]
  intro m hm
  rw [not_fromServer_of_mem_localOnly hm]
  exact Bool.false_ne_true

/-- **WHAT `setDMHistory` LEAVES** is the merge of the two lists. -/
theorem merged_setDMHistory {getTime : String → Option Int} {s : ChatStore} {k : String}
    {msgs : List Message} (hsorted : Chronological getTime msgs)
    (hd : Dated getTime (msgs ++ s.conversation k)) :
    Merged getTime s k msgs ((s.setDMHistory getTime k msgs).conversation k) := by
  have hmsgs : Dated getTime msgs := fun m hm => hd m (List.mem_append_left _ hm)
  have hall := dated_merge hd
  rw [conversation_setDMHistory hd]
  have hperm := sortBy_perm (timeOf getTime) (msgs ++ s.localOnly k msgs)
  have hout : Dated getTime (sortBy (timeOf getTime) (msgs ++ s.localOnly k msgs)) :=
    fun m hm => hall m (hperm.mem_iff.mp hm)
  refine ⟨(chronological_iff hout).mpr (sortBy_pairwise _ _), hperm, ?_, ?_⟩
  · -- the server's messages are in order already
    rw [filter_sortBy, filter_fromServer]
    rw [filter_fromServer]
    exact (chronological_iff hmsgs).mp hsorted
  · intro t
    -- local entries of one time tie
    have htie : ∀ m ∈ msgs ++ s.localOnly k msgs,
        getTime m.timestamp = some t → timeOf getTime m = t := by
      intro m _ ht
      rw [timeOf, ht]
      rfl
    rw [filter_sortBy]
    · rw [List.filter_append, List.filter_eq_nil_iff.mpr, List.nil_append]
      · refine List.filter_congr fun m hm => ?_
        rw [not_fromServer_of_mem_localOnly hm]
        rfl
      · intro m hm
        rw [fromServer_of_mem hm]
        exact Bool.false_ne_true
    · refine List.Pairwise.imp_of_mem ?_ (List.pairwise_of_forall fun _ _ => trivial)
      intro a b ha hb _
      obtain ⟨hina, hpa⟩ := List.mem_filter.mp ha
      obtain ⟨hinb, hpb⟩ := List.mem_filter.mp hb
      rw [Bool.and_eq_true, decide_eq_true_eq] at hpa hpb
      rw [htie a hina hpa.2, htie b hinb hpb.2]

/-- The same history again finds what it has left. -/
theorem setDMHistory_twice {getTime : String → Option Int} {s : ChatStore} {k : String}
    {msgs : List Message} (hd : Dated getTime (msgs ++ s.conversation k)) :
    ((s.setDMHistory getTime k msgs).setDMHistory getTime k msgs).conversation k
      = (s.setDMHistory getTime k msgs).conversation k := by
  have hall := dated_merge hd
  have hagain : Dated getTime (msgs ++ (s.setDMHistory getTime k msgs).conversation k) := by
    intro m hm
    rcases List.mem_append.mp hm with hin | hin
    · exact hd m (List.mem_append_left _ hin)
    · rw [conversation_setDMHistory hd] at hin
      exact hall m ((sortBy_perm _ _).mem_iff.mp hin)
  rw [conversation_setDMHistory hagain, localOnly, conversation_setDMHistory hd]
  refine sortBy_append_filter ?_ ?_
  · intro m hm
    rw [fromServer_of_mem hm]
    rfl
  · intro m hm
    rw [not_fromServer_of_mem_localOnly hm]
    rfl

/-- **THE HISTORY MERGE**: a chronological history of dated messages, merged into any
    conversation of dated messages, gives all of the history and the local entries it
    does not have, by time; the server's order is kept, ties among local entries keep
    theirs, merging again changes nothing, and no other conversation changes. -/
theorem setDMHistory_merges {getTime : String → Option Int} {s : ChatStore} {k : String}
    {msgs : List Message} (hsorted : Chronological getTime msgs)
    (hd : Dated getTime (msgs ++ s.conversation k)) :
    Merged getTime s k msgs ((s.setDMHistory getTime k msgs).conversation k) ∧
    ((s.setDMHistory getTime k msgs).setDMHistory getTime k msgs).conversation k
      = (s.setDMHistory getTime k msgs).conversation k ∧
    ∀ k', k' ≠ k → (s.setDMHistory getTime k msgs).conversation k' = s.conversation k' :=
  ⟨merged_setDMHistory hsorted hd, setDMHistory_twice hd,
    fun _ hk => conversation_setDMHistory_ne getTime s msgs hk⟩

/-- Two messages of the server in one second, and one of the client in the second
    before that the server does not have. -/
theorem setDMHistory_merges_tied :
    Merged sampleTime
      (ChatStore.initial.addDMMessage "2"
        ⟨"c", "me", "1", "hi", "2026-04-07T10:00:00Z", .sent, true⟩) "2"
      [⟨"a", "bob", "2", "x", "2026-04-07T10:00:01Z", .read, false⟩,
        ⟨"b", "bob", "2", "y", "2026-04-07T10:00:01Z", .read, false⟩]
      (((ChatStore.initial.addDMMessage "2"
        ⟨"c", "me", "1", "hi", "2026-04-07T10:00:00Z", .sent, true⟩).setDMHistory sampleTime "2"
        [⟨"a", "bob", "2", "x", "2026-04-07T10:00:01Z", .read, false⟩,
          ⟨"b", "bob", "2", "y", "2026-04-07T10:00:01Z", .read, false⟩]).conversation "2") :=
  (setDMHistory_merges (by decide) (by decide)).1

end ChatStore

end PeerWeb
