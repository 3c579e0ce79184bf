import PeerChat.ServerProofs

/-! # The order of message statuses

    Three writers set a message's status with an unconditional update: a
    `HandleDM` call and a drain write 'delivered', a `HandleAck` writes 'read'.
    Whoever will still write 'delivered' for a message OWES it that mark; a
    status can only go back when an ack writes 'read' for a message that is
    owed one. -/

namespace PeerServer

open PeerEnv KeyedTable PeerHub PeerStore PeerFrame PeerWorld PeerHandler Transition
open ThreadPool

/-- The messages a thread may still mark 'delivered'. A `Send` that evicts its client
    returns false, and `HandleDM` marks nothing then. -/
def Thread.marks : Thread → List UUID
  | .send (.dmLive _ _) (.evict _) => []
  | .send (.dmLive _ stored) _ => [stored.id]
  | .dmMark _ stored => [stored.id]
  | .drain _ rows => rows.map fun p => p.message.id
  | .send (.drain _ _ row rest) _ => row.message.id :: rest.map fun p => p.message.id
  | .drainMark _ row rest => row.message.id :: rest.map fun p => p.message.id
  | _ => []

/-- The message a thread is about to mark 'read'. -/
def Thread.acks : Thread → List UUID
  | .ackUpdate _ call => [call.messageID]
  | _ => []

/-- No message loses rank. -/
def Monotone (s t : Server) : Prop :=
  ∀ m ∈ s.world.db.messages.rows, ∃ m' ∈ t.world.db.messages.rows,
    m'.id = m.id ∧ m.status.rank ≤ m'.status.rank

instance (s t : Server) : Decidable (Monotone s t) :=
  inferInstanceAs (Decidable (∀ m ∈ _, ∃ m' ∈ _, _))

/-- The condition on a step: an ack's update runs only when nobody owes its
    message a 'delivered'. An `UPDATE` that fails may run at any time. -/
def AckAfterMarks (s : Server) : Action → Prop
  | .run i env => env.ok .updateStatus = true →
      ∀ t ∈ s.threads[i]?, ∀ id ∈ t.acks, ∀ u ∈ s.threads, id ∉ u.marks
  | _ => True

instance (s : Server) (a : Action) : Decidable (AckAfterMarks s a) :=
  match a with
  | .run i _ => inferInstanceAs (Decidable (_ → ∀ t ∈ s.threads[i]?, _))
  | .dm _ | .connect _ | .ack _ _ | .activate _ | .pumpWrite _ _ | .pumpStop _ =>
      isTrue trivial

/-- A message that is 'read' is owed nothing. -/
def ReadSettled (s : Server) : Prop :=
  ∀ m ∈ s.world.db.messages.rows, m.status = .read → ∀ u ∈ s.threads, m.id ∉ u.marks

/-! ## What a step does to marks and statuses -/

/-- A quiet step owes no new mark. -/
theorem marks_quiet {w : World} {t t' : Thread} {new : List Thread}
    (h : Quiet w t t' new) :
    (∀ id ∈ t'.marks, id ∈ t.marks) ∧ ∀ u ∈ new, u.marks = [] := by
  cases h with
  | filed c sub =>
      refine ⟨fun _ h => h, ?_⟩
      intro u hu
      rw [List.mem_singleton.mp hu]
      rfl
  | drainNext c row rest => exact ⟨fun _ h => h, fun u hu => by cases hu⟩
  | _ => exact ⟨fun _ h => (by cases h), fun u hu => (by cases hu)⟩

/-- A handler that goes on after its `Send` owes no new mark. -/
theorem marks_resume {w : World} {k : Kont} {pc : SendPc} {hub : Hub Frame} {ok : Bool}
    (hs : SendStep w.hub k.toID k.data pc hub (.returned ok)) :
    ∀ id ∈ (k.resume ok).marks, id ∈ (Thread.send k pc).marks := by
  cases k with
  | dmLive call stored =>
      cases ok with
      | true =>
          -- only a message that was enqueued is marked
          cases hs
          exact fun _ h => h
      | false => exact fun _ h => by cases h
  | dmAck call stored => exact fun _ h => by cases h
  | drain c u row rest => exact fun _ h => h
  | forward sub u payload => exact fun _ h => by cases h
  | ackNotify s m => cases ok <;> exact fun _ h => by cases h

/-- Nor does a `Send` that goes on. -/
theorem marks_send {w : World} {k : Kont} {pc pc' : SendPc} {hub : Hub Frame}
    (hs : SendStep w.hub k.toID k.data pc hub (.goto pc')) :
    ∀ id ∈ (Thread.send k pc').marks, id ∈ (Thread.send k pc).marks := by
  cases hs with
  | found c hc => cases k <;> exact fun _ h => h
  | full c hopen hfull =>
      cases k with
      | dmLive call stored => exact fun _ h => by cases h
      | _ => exact fun _ h => h

theorem marks_ackNext (call : AckCall) : (ackNext call).marks = [] := by
  simp only [ackNext]
  split <;> rfl

/-- **WHOEVER OWES A MARK AFTER A STEP OWED IT BEFORE**, or the message is still
    'sent'. -/
theorem marks_of_step {w w' : World} {env : Env} {t t' : Thread} {new : List Thread}
    (h : ThreadStep w env t w' t' new) :
    (∀ id ∈ t'.marks, id ∈ t.marks ∨
      ∃ m ∈ w'.db.messages.rows, m.id = id ∧ m.status = .sent) ∧
    ∀ u ∈ new, u.marks = [] := by
  cases h with
  | quiet hdb hhub haddr hq =>
      exact ⟨fun id hid => Or.inl ((marks_quiet hq).1 id hid), (marks_quiet hq).2⟩
  | stored call chatID db stored hi =>
      obtain ⟨-, hst⟩ := insertMessage_ok hi
      refine ⟨?_, fun u hu => by cases hu⟩
      intro id hid
      refine Or.inr ⟨stored, ?_, (List.mem_singleton.mp hid).symm, hst.sent⟩
      show stored ∈ db.messages.rows
      rw [hst.messages]
      exact List.mem_concat_self
  | sendGoto k pc pc' hub hs =>
      exact ⟨fun id hid => Or.inl (marks_send hs id hid), fun u hu => by cases hu⟩
  | sendReturned k pc hub ok hs =>
      exact ⟨fun id hid => Or.inl (marks_resume hs id hid), fun u hu => by cases hu⟩
  | drainMarked c row rest =>
      exact ⟨fun id hid => Or.inl (List.mem_cons_of_mem _ hid), fun u hu => by cases hu⟩
  | pending c rows hr =>
      refine ⟨?_, fun u hu => by cases hu⟩
      intro id hid
      obtain ⟨p, hp, rfl⟩ := List.mem_map.mp hid
      obtain ⟨hm, -, -, hsent, -⟩ := mem_pendingRows.mp ((getPendingMessages_ok hr).1 p hp)
      exact Or.inr ⟨p.message, hm, rfl, hsent⟩
  | acked readerID call hok =>
      rw [marks_ackNext]
      exact ⟨fun _ h => (by cases h), fun u hu => (by cases hu)⟩
  | _ => exact ⟨fun _ h => (by cases h), fun u hu => (by cases hu)⟩

/-- **WHAT IS 'READ' AFTER A STEP WAS 'READ' BEFORE**, or the step is its ack. -/
theorem read_of_step {w w' : World} {env : Env} {t t' : Thread} {new : List Thread}
    (h : ThreadStep w env t w' t' new) {m' : Message} (hm' : m' ∈ w'.db.messages.rows)
    (hread : m'.status = .read) :
    (∃ m ∈ w.db.messages.rows, m.id = m'.id ∧ m.status = .read) ∨
      (env.ok .updateStatus = true ∧ m'.id ∈ t.acks) := by
  rcases row_of_step h hm' with ⟨m, hm, hid, -, -, hst | hsets⟩ | ⟨call, -, -, -, hsent, -⟩
  · exact Or.inl ⟨m, hm, hid, hst.symm.trans hread⟩
  · rw [hread] at hsets
    cases t with
    | ackUpdate readerID call =>
        have hacked : call.messageID = m'.id := congrArg Prod.fst (Option.some.inj hsets)
        cases h with
        | quiet hdb _ _ _ =>
            rw [hdb] at hm'
            exact Or.inl ⟨m', hm', rfl, hread⟩
        | acked _ _ hok =>
            rw [← hacked]
            exact Or.inr ⟨hok, List.mem_singleton.mpr rfl⟩
    | dmMark call stored => cases congrArg Prod.snd (Option.some.inj hsets)
    | drainMark c row rest => cases congrArg Prod.snd (Option.some.inj hsets)
    | _ => cases hsets
  · rw [hsent] at hread
    cases hread

/-- No step takes rank from a message that is not 'read' under an owed mark. -/
theorem rank_of_step {w w' : World} {env : Env} {t t' : Thread} {new : List Thread}
    (h : ThreadStep w env t w' t' new) {m : Message} (hm : m ∈ w.db.messages.rows)
    (hsettled : m.status = .read → m.id ∉ t.marks) :
    ∃ m' ∈ w'.db.messages.rows, m'.id = m.id ∧ m.status.rank ≤ m'.status.rank := by
  -- a mark does not go below 'delivered', and its message is not 'read'
  have hmark : ∀ id, id ∈ t.marks →
      ∃ m' ∈ (markDelivered w env id).db.messages.rows,
        m'.id = m.id ∧ m.status.rank ≤ m'.status.rank := by
    intro id hid
    obtain ⟨m', hm', hmid, hcase⟩ := markDelivered_row_of env id hm
    refine ⟨m', hm', hmid, ?_⟩
    rcases hcase with ⟨hid', hst⟩ | hst
    · rw [hst]
      cases hms : m.status with
      | sent => exact Nat.zero_le _
      | delivered => exact Nat.le_refl _
      | read => exact absurd (hid' ▸ hid) (hsettled hms)
    · rw [hst]
  cases h with
  | quiet hdb hhub haddr hq =>
      rw [hdb]
      exact ⟨m, hm, rfl, Nat.le_refl _⟩
  | created call db hc =>
      refine ⟨m, ?_, rfl, Nat.le_refl _⟩
      show m ∈ db.messages.rows
      rw [(createChat_ok hc).messages]
      exact hm
  | stored call chatID db stored hi =>
      refine ⟨m, ?_, rfl, Nat.le_refl _⟩
      show m ∈ db.messages.rows
      rw [(insertMessage_ok hi).2.messages]
      exact List.mem_append_left _ hm
  | marked call stored => exact hmark stored.id (List.mem_singleton.mpr rfl)
  | drainMarked c row rest => exact hmark row.message.id List.mem_cons_self
  | acked readerID call hok =>
      obtain ⟨m', hm', hmid, hcase⟩ := setStatus_row_of call.messageID .read hm
      refine ⟨m', hm', hmid, ?_⟩
      rcases hcase with ⟨-, hst⟩ | ⟨-, hst⟩
      · rw [hst]
        cases m.status <;> decide
      · rw [hst]
  | _ => exact ⟨m, hm, rfl, Nat.le_refl _⟩

/-! ## The invariant -/

theorem readSettled_start (db : Db) (who : ClientId → UUID × String) :
    ReadSettled (start db who) := by
  intro m _ _ u hu
  cases hu

/-- Starting a thread that owes nothing changes nothing. -/
theorem readSettled_spawn {s : Server} {t : Thread} (hi : ReadSettled s)
    (ht : t.marks = []) : ∀ m ∈ s.world.db.messages.rows, m.status = .read →
      ∀ u ∈ s.threads ++ [t], m.id ∉ u.marks := by
  intro m hm hread u hu
  rcases List.mem_append.mp hu with hold | hnew
  · exact hi m hm hread u hold
  · rw [List.mem_singleton.mp hnew, ht]
    exact List.not_mem_nil

/-- Every guarded step keeps what is 'read' free of owed marks. -/
theorem readSettled_step {s t : Server} {a : Action} (hi : ReadSettled s)
    (hG : AckAfterMarks s a) (h : Stepped s a t) : ReadSettled t := by
  cases h with
  | dm call => exact readSettled_spawn hi rfl
  | connect c _ => exact readSettled_spawn hi rfl
  | ack readerID call => exact readSettled_spawn hi rfl
  | run i env th w th' new hth hstep =>
      intro m' hm' hread u hu hmark
      have hmem : th ∈ s.threads := List.mem_of_getElem? hth
      obtain ⟨hmarks, hnew⟩ := marks_of_step hstep
      -- nobody of the old pool owes this message a mark
      have hold : ∀ v ∈ s.threads, m'.id ∉ v.marks := by
        intro v hv
        rcases read_of_step hstep hm' hread with ⟨m, hm, hid, hst⟩ | ⟨hok, hack⟩
        · rw [← hid]
          exact hi m hm hst v hv
        · exact hG hok th hth _ hack v hv
      rcases mem_moved hu with hin | rfl | hin
      · exact hold u hin hmark
      · rcases hmarks _ hmark with hbefore | ⟨m, hm, hid, hsent⟩
        · exact hold th hmem hbefore
        · rw [eq_of_key hm hm' hid, hread] at hsent
          cases hsent
      · rw [hnew u hin] at hmark
        cases hmark
  | activate sub => exact hi
  | pumpWrite c ok f rest _ _ => exact hi
  | pumpStop c _ => exact hi

/-- **STATUSES ONLY MOVE FORWARD**, in every run whose acks come after all marks of
    their message. -/
theorem status_monotone {db : Db} {who : ClientId → UUID × String} {s t : Server}
    {a : Action} (h : Reach step AckAfterMarks (start db who) s) (hG : AckAfterMarks s a)
    (hst : step s a = some t) : Monotone s t := by
  have hi : ReadSettled s :=
    Reach.invariant (fun _ _ _ hs hG ht => readSettled_step hs hG (step_cases ht)) h
      (readSettled_start db who)
  intro m hm
  cases step_cases hst with
  | run i env th w th' new hth hstep =>
      exact rank_of_step hstep hm (fun hread => hi m hm hread th (List.mem_of_getElem? hth))
  | _ => exact ⟨m, hm, rfl, Nat.le_refl _⟩

/-- Alice, who has the frame already, acks Bob's message before his call gets to
    mark it: it goes from 'read' back to 'delivered'. -/
theorem status_goes_back : ¬ ∀ (s t : Server) (a : Action),
    Reach step anyStep (start threeUsers oneUser) s → step s a = some t →
      Monotone s t := by
  obtain ⟨s, hs, hback⟩ := exists_reach_of_replayGuarded step (fun _ _ => True)
    (start threeUsers oneUser)
    (aliceConnects ++ .dm bobsCall :: List.replicate 5 (.run 2 fineEnv) ++
      [.ack ⟨1⟩ ⟨⟨20⟩, some ⟨2⟩⟩, .run 3 fineEnv])
    (fun s => ∃ t ∈ step s (.run 2 fineEnv), ¬ Monotone s t) (by decide +kernel)
  obtain ⟨t, ht, hnot⟩ := hback
  intro hall
  exact hnot (hall s t _ hs ht)

/-- Alice acks after Bob's call has marked his message. -/
theorem status_monotone_late_ack : ∃ s t : Server,
    Reach step AckAfterMarks (start threeUsers oneUser) s ∧
      step s (.run 3 fineEnv) = some t ∧ Monotone s t := by
  obtain ⟨s, hs, hG, hsome⟩ := exists_reach_of_replayGuarded step AckAfterMarks
    (start threeUsers oneUser)
    (aliceConnects ++ .dm bobsCall :: List.replicate 6 (.run 2 fineEnv) ++
      [.ack ⟨1⟩ ⟨⟨20⟩, some ⟨2⟩⟩])
    (fun s => AckAfterMarks s (.run 3 fineEnv) ∧ (step s (.run 3 fineEnv)).isSome = true)
    (by decide +kernel)
  obtain ⟨t, ht⟩ := Option.isSome_iff_exists.mp hsome
  exact ⟨s, t, hs, ht, status_monotone hs hG ht⟩

end PeerServer
