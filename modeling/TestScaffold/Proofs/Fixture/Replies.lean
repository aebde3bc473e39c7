/-
  TestScaffold/Proofs/Fixture/Replies.lean
  ========================================
  **What a set of directives answers is told by the steps so far.**

  A set keeps directives only, no notes of what was asked.  Its replies are compared
  with the past instead: with the directives that were offered to it, and with those
  whose addition it answered by yes.

  Of both, the set knows enough.  It lists the accepted ones, in their order, and
  these have the names of all that were offered, each name once (`Told`).  Every step
  replies by that and keeps it (`Told.reply_eq`, `Told.step`), whichever steps are
  taken in between and in whichever forms a name comes back.
-/
import TestScaffold.Proofs.Fixture.Directives
import TestScaffold.Proofs.Fixture.Parts

namespace TestScaffold

open Source (Using)

namespace UsingSet

/-! ### The past -/

/-- The directives that were to be added. -/
def offered (past : List (Step × Reply)) : List Using :=
  past.filterMap fun
    | (.add d, _) => some d
    | _ => none

/-- The directives whose addition was answered by yes. -/
def accepted (past : List (Step × Reply)) : List Using :=
  past.filterMap fun
    | (.add d, .flag true) => some d
    | _ => none

/-- The reply to a step behind these: a directive is added if none of its name was offered, and a
name is there if one was; counted and listed are the directives that were accepted. -/
def replyAfter (past : List (Step × Reply)) : Step → Reply
  | .add d => .flag (decide (∀ e ∈ offered past, e.name ≠ d.name))
  | .contains (.str name) => .flag (decide (∃ e ∈ offered past, e.name.text = name))
  | .contains (.list _) => .refusal
  | .contains (.dict _) => .refusal
  | .contains _ => .flag false
  | .size => .count (accepted past).length
  | .list => .listed (accepted past)

variable {s : UsingSet} {past : List (Step × Reply)} {d : Using}

theorem added_iff : (s.add d).2 = true ↔ ∀ e ∈ s.directives, e.name ≠ d.name := by
  have hcontains : s.contains d.name.text = true ↔ ∃ e ∈ s.directives, e.name = d.name := by
    rw [contains_eq_true_iff]
    simp only [Name.text_injective.eq_iff]
  unfold add
  split
  · rename_i htaken
    obtain ⟨e, he, hname⟩ := hcontains.mp htaken
    exact iff_of_false Bool.false_ne_true fun hfree => hfree e he hname
  · rename_i hfree
    exact iff_of_true rfl fun e he hname => hfree (hcontains.mpr ⟨e, he, hname⟩)

/-! ### One step -/

/-- What the past tells of the set that it has left. -/
structure Told (past : List (Step × Reply)) (s : UsingSet) : Prop where
  listed : s.directives = accepted past
  named : ∀ name : String,
    (∃ e ∈ s.directives, e.name.text = name) ↔ ∃ e ∈ offered past, e.name.text = name
  nodup : (s.directives.map (·.name)).Nodup

theorem told_nil : Told [] (mk []) := ⟨rfl, fun _ => Iff.rfl, List.nodup_nil⟩

namespace Told

/-- Behind a step that offers nothing the past tells the same. -/
theorem of_offers_nothing (h : Told past s) {last : Step} (reply : Reply)
    (hlast : ∀ d, last ≠ .add d) : Told (past ++ [(last, reply)]) s := by
  have hoffered : offered (past ++ [(last, reply)]) = offered past := by
    cases last with
    | add d => exact absurd rfl (hlast d)
    | _ => simp [offered]
  have haccepted : accepted (past ++ [(last, reply)]) = accepted past := by
    cases last with
    | add d => exact absurd rfl (hlast d)
    | _ => simp [accepted]
  exact ⟨haccepted ▸ h.listed, hoffered ▸ h.named, h.nodup⟩

theorem add (h : Told past s) (d : Using) :
    Told (past ++ [(.add d, .flag (s.add d).2)]) (s.add d).1 := by
  have hoffered : offered (past ++ [(.add d, .flag (s.add d).2)]) = offered past ++ [d] := by
    simp [offered]
  have hnamed : ∀ name : String, (∃ e ∈ s.directives ++ [d], e.name.text = name) ↔
      ∃ e ∈ offered past ++ [d], e.name.text = name := by
    intro name
    simp only [List.mem_append, or_and_right, exists_or, h.named name]
  by_cases hfree : ∀ e ∈ s.directives, e.name ≠ d.name
  · have hset : (s.add d).1 = ⟨s.directives ++ [d]⟩ := add_of_notMem hfree
    constructor
    · simp [hset, accepted, added_iff.mpr hfree, h.listed]
    · rw [hoffered, hset]
      exact hnamed
    · exact nodup_names_add h.nodup
  · have hadded : (s.add d).2 = false := by
      rw [← Bool.not_eq_true, added_iff]
      exact hfree
    push Not at hfree
    obtain ⟨taken, htaken, hname⟩ := hfree
    have hset : (s.add d).1 = s := add_of_mem ⟨taken, htaken, hname⟩
    constructor
    · simp [hset, accepted, hadded, h.listed]
    · intro name
      rw [hoffered, hset, ← hnamed]
      constructor
      · rintro ⟨e, he, htext⟩
        exact ⟨e, List.mem_append_left _ he, htext⟩
      · rintro ⟨e, he, rfl⟩
        rcases List.mem_append.mp he with he | he
        · exact ⟨e, he, rfl⟩
        · -- the directive that is refused has a name that the set knows
          rw [List.mem_singleton.mp he]
          exact ⟨taken, htaken, congrArg Name.text hname⟩
    · exact nodup_names_add h.nodup

/-- **Every step keeps what the past tells of the set.** -/
theorem step (h : Told past s) (last : Step) :
    Told (past ++ [(last, (s.step last).2)]) (s.step last).1 := by
  cases last with
  | add d => exact h.add d
  | contains key => exact h.of_offers_nothing _ (by simp)
  | size => exact h.of_offers_nothing _ (by simp)
  | list => exact h.of_offers_nothing _ (by simp)

theorem contains_eq (h : Told past s) (name : String) :
    s.contains name = decide (∃ e ∈ offered past, e.name.text = name) := by
  rw [Bool.eq_iff_iff, contains_eq_true_iff, decide_eq_true_iff]
  exact h.named name

theorem added_eq (h : Told past s) (d : Using) :
    (s.add d).2 = decide (∀ e ∈ offered past, e.name ≠ d.name) := by
  have hnamed := not_congr (h.named d.name.text)
  simp only [Name.text_injective.eq_iff] at hnamed
  push Not at hnamed
  rw [Bool.eq_iff_iff, added_iff, decide_eq_true_iff]
  exact hnamed

/-- **Every step replies by the past.** -/
theorem reply_eq (h : Told past s) (next : Step) : (s.step next).2 = replyAfter past next := by
  cases next with
  | add d => exact congrArg Reply.flag (h.added_eq d)
  | contains key =>
    cases key with
    | str name => exact congrArg Reply.flag (h.contains_eq name)
    | _ => rfl
  | size => rw [UsingSet.step, replyAfter, h.listed]
  | list => rw [UsingSet.step, replyAfter, h.listed]

/-! ### Any steps -/

/-- The induction is on the steps still to be taken, behind those that were. -/
theorem record (h : Told past s) {steps : List Step} {front later : List (Step × Reply)}
    {next : Step} {reply : Reply} (hsplit : s.record steps = front ++ (next, reply) :: later) :
    reply = replyAfter (past ++ front) next ∧
      ((accepted (past ++ front)).map (·.name)).Nodup := by
  induction steps generalizing s past front with
  | nil => simp [UsingSet.record] at hsplit
  | cons first rest ih =>
    rw [UsingSet.record] at hsplit
    cases front with
    | nil =>
      obtain ⟨heq, _⟩ := List.cons.inj hsplit
      obtain ⟨rfl, rfl⟩ := Prod.mk.inj heq
      rw [List.append_nil]
      exact ⟨h.reply_eq first, h.listed ▸ h.nodup⟩
    | cons entry front =>
      obtain ⟨rfl, hrest⟩ := List.cons.inj hsplit
      have htold := ih (h.step first) hrest
      rwa [List.append_assoc, List.singleton_append] at htold

end Told

theorem map_fst_record (s : UsingSet) (steps : List Step) :
    (s.record steps).map Prod.fst = steps := by
  induction steps generalizing s with
  | nil => rfl
  | cons step rest ih => rw [record, List.map_cons, ih]

/-- **The replies of a new set to any steps.** There is one for each step, and it is told by the
steps before with their replies: a directive is added if and only if none of its name was offered
before, a name is in the set if and only if a directive of that name was offered, and counted and
listed are the directives whose addition was answered by yes, in their order. No two of these have
the same name. -/
theorem record_replies (steps : List Step) :
    ((mk []).record steps).map Prod.fst = steps ∧
      ∀ past step reply later, (mk []).record steps = past ++ (step, reply) :: later →
        reply = replyAfter past step ∧ ((accepted past).map (·.name)).Nodup := by
  refine ⟨map_fst_record _ steps, fun past step reply later hsplit => ?_⟩
  obtain ⟨hreply, hnodup⟩ := told_nil.record hsplit
  rw [List.nil_append] at hreply hnodup
  exact ⟨hreply, hnodup⟩

-- a name that comes back in another form is refused, and the first form stays
example : ((mk []).record [.add ⟨⟨"System", by decide⟩, none, false, false⟩,
      .add ⟨⟨"System", by decide⟩, none, false, true⟩, .size, .contains (.str "System"),
      .list]).map Prod.snd =
    [.flag true, .flag false, .count 1, .flag true,
      .listed [⟨⟨"System", by decide⟩, none, false, false⟩]] := by
  decide +kernel

end UsingSet

end TestScaffold
