/-
  TestScaffold/Proofs/Settings/Overlays.lean
  ==========================================
  **What stands at the end of any way once one mapping is laid over another.**

  A value of the upper mapping stands where it stood, and hides whatever the lower
  one has below it.  A mapping of the upper one is laid over the mapping that
  stands there below, if one does.  Where the upper mapping has nothing, and
  nothing of it stands in front, the lower one is seen through
  (`Datum.OverlaidAt`).

  A scalar may meet a mapping at any depth, the one above or the other.  The law is
  therefore stated for a datum over what may stand below it (`Datum.layered`),
  where a datum that is no mapping and nothing at all come to the same: neither has
  entries (`Datum.layered_dict`).  The induction is on the way, one name at a time.

  Three laws of the whole mapping follow from how single entries are set: nothing
  below, nothing above, and the same mapping once more.
-/
import TestScaffold.Proofs.Settings.Merging

namespace TestScaffold.Datum

open Environment (EndsOn)

/-! ### Entries set one after the other -/

theorem lookup?_append (key : String) (es fs : Entries) :
    lookup? key (es ++ fs) = (lookup? key es).or (lookup? key fs) := by
  induction es with
  | nil => rfl
  | cons head rest ih =>
    obtain ⟨name, value⟩ := head
    by_cases hname : name = key
    · simp [lookup?, hname]
    · simp [lookup?, hname, ih]

/-- A key that is not there is set at the end. -/
theorem insert_eq_append {key : String} {es : Entries} (h : lookup? key es = none) (value : Datum) :
    insert key value es = es ++ [(key, value)] := by
  induction es with
  | nil => rfl
  | cons head rest ih =>
    obtain ⟨name, first⟩ := head
    by_cases hname : name = key
    · simp [lookup?, hname] at h
    · have hrest : lookup? key rest = none := by simpa [lookup?, hname] using h
      simp [insert, hname, ih hrest]

/-- A key that is set to what it holds changes nothing. -/
theorem insert_eq_self {key : String} {value : Datum} {es : Entries}
    (h : lookup? key es = some value) : insert key value es = es := by
  induction es with
  | nil => cases h
  | cons head rest ih =>
    obtain ⟨name, first⟩ := head
    by_cases hname : name = key
    · simp only [lookup?, hname, if_true, Option.some.injEq] at h
      simp [insert, hname, h]
    · have hrest : lookup? key rest = some value := by simpa [lookup?, hname] using h
      simp [insert, hname, ih hrest]

/-- Entries with keys that are not there come behind. -/
theorem merge_eq_append {updates : Entries} (h : areKeyed updates = true) {base : Entries}
    (hapart : ∀ key, lookup? key base = none ∨ lookup? key updates = none) :
    merge base updates = base ++ updates := by
  induction updates generalizing base with
  | nil => rw [merge_nil, List.append_nil]
  | cons head rest ih =>
    obtain ⟨name, value⟩ := head
    obtain ⟨hname, _, hrest⟩ := areKeyed_cons.mp h
    have hfree : lookup? name base = none := by simpa [lookup?] using hapart name
    rw [merge, hfree, layered_none, insert_eq_append hfree, ih hrest, List.append_assoc]
    · rfl
    · intro key
      by_cases heq : name = key
      · exact .inr (heq ▸ hname)
      · simpa [lookup?_append, lookup?, heq] using hapart key

/-- **Laid over nothing, entries are themselves.** -/
theorem merge_empty {updates : Entries} (h : areKeyed updates = true) : merge [] updates = updates :=
  merge_eq_append h fun _ => .inl rfl

/-- Updates that change no entry change nothing. -/
theorem merge_eq_self {updates : Entries} (h : areKeyed updates = true) {base : Entries}
    (hkept : ∀ key value, lookup? key updates = some value →
      ∃ kept, lookup? key base = some kept ∧ layered (some kept) value = kept) :
    merge base updates = base := by
  induction updates with
  | nil => rfl
  | cons head rest ih =>
    obtain ⟨name, value⟩ := head
    obtain ⟨hname, _, hrest⟩ := areKeyed_cons.mp h
    obtain ⟨kept, hbase, hlaid⟩ := hkept name value (by simp [lookup?])
    rw [merge, hbase, hlaid, insert_eq_self hbase]
    refine ih hrest fun key other hother => hkept key other ?_
    have hne : name ≠ key := by
      rintro rfl
      rw [hname] at hother
      cases hother
    simpa [lookup?, hne] using hother

theorem merge_merge_of {updates : Entries} (h : areKeyed updates = true)
    (hvalues : ∀ key value, lookup? key updates = some value → ∀ below? : Option Datum,
      layered (some (layered below? value)) value = layered below? value) (base : Entries) :
    merge (merge base updates) updates = merge base updates := by
  refine merge_eq_self h fun key value hvalue => ?_
  exact ⟨_, by rw [lookup?_merge h, hvalue], hvalues key value hvalue _⟩

/-- A mapping laid over a datum is laid over the entries of that datum, which may be none. -/
theorem layered_dict {updates : Entries} (h : areKeyed updates = true) (below? : Option Datum) :
    layered below? (dict updates) = dict (merge (entriesOf below?) updates) := by
  cases below? with
  | none => exact congrArg dict (merge_empty h).symm
  | some d =>
    cases d with
    | dict base => simp only [layered, entriesOf]
    | _ => exact congrArg dict (merge_empty h).symm

mutual

/-- What is laid over twice is laid over once. -/
theorem layered_layered : ∀ {d : Datum}, d.isKeyed = true → ∀ below? : Option Datum,
    layered (some (layered below? d)) d = layered below? d
  | dict updates, h, below? => by
    have hmerge := merge_merge_of h (layered_layered_of_lookup? h) (entriesOf below?)
    rw [layered_dict h below?, layered_dict h, entriesOf, hmerge]
  | null, _, _ | bool _, _, _ | int _, _, _ | float _, _, _ | str _, _, _ | instant _, _, _
  | binary _, _, _ | list _, _, _ => rfl

theorem layered_layered_of_lookup? : ∀ {es : Entries}, areKeyed es = true →
    ∀ key value, lookup? key es = some value → ∀ below? : Option Datum,
      layered (some (layered below? value)) value = layered below? value
  | [], _, _, _, hvalue => by cases hvalue
  | (name, first) :: rest, h, key, value, hvalue => by
    obtain ⟨_, hfirst, hrest⟩ := areKeyed_cons.mp h
    by_cases hname : name = key
    · simp only [lookup?, hname, if_true, Option.some.injEq] at hvalue
      subst hvalue
      exact layered_layered hfirst
    · simp only [lookup?, hname, if_false] at hvalue
      exact layered_layered_of_lookup? hrest key value hvalue

end

/-- **Updates that are there already change nothing.** -/
theorem merge_merge {updates : Entries} (h : areKeyed updates = true) (base : Entries) :
    merge (merge base updates) updates = merge base updates :=
  merge_merge_of h (layered_layered_of_lookup? h) base

/-! ### Ways -/

/-- A way in two parts is gone one part after the other. -/
theorem at?_append (front rest : List String) (d : Datum) :
    at? (front ++ rest) d = (at? front d).bind (at? rest) := by
  induction front generalizing d with
  | nil => rfl
  | cons name front ih =>
    cases d with
    | dict es =>
      rw [List.cons_append, at?_cons_dict, at?_cons_dict]
      cases lookup? name es with
      | none => rfl
      | some inner => exact ih inner
    | _ => rfl

/-- The first step of a way is a step into entries, be they of a mapping or none. -/
theorem bind_at?_cons (name : String) (rest : List String) (d? : Option Datum) :
    d?.bind (at? (name :: rest)) = (lookup? name (entriesOf d?)).bind (at? rest) := by
  cases d? with
  | none => rfl
  | some d => cases d <;> rfl

/-- A value stands in front of the end of the way, so that nothing stands there. -/
def Barred (way : List String) (d : Datum) : Prop :=
  ∃ front value, EndsOn front way ∧ d.at? front = some value ∧ value.isMapping = false

theorem Barred.cons {name : String} {rest : List String} {es : Entries} {inner : Datum}
    (hinner : lookup? name es = some inner) (h : Barred rest inner) :
    Barred (name :: rest) (dict es) := by
  obtain ⟨front, value, ⟨hfront, hne⟩, hvalue, hscalar⟩ := h
  refine ⟨name :: front, value, ⟨List.cons_prefix_cons.mpr ⟨rfl, hfront⟩, by simpa using hne⟩, ?_,
    hscalar⟩
  rw [at?_cons_dict, hinner]
  exact hvalue

theorem at?_eq_none_of_not_isMapping {d : Datum} (h : d.isMapping = false) {way : List String}
    (hway : way ≠ []) : d.at? way = none := by
  obtain ⟨name, rest, rfl⟩ := List.exists_cons_of_ne_nil hway
  cases d with
  | dict es => cases h
  | _ => rfl

/-- Nothing stands behind a value. -/
theorem Barred.at? {way : List String} {d : Datum} (h : Barred way d) : d.at? way = none := by
  obtain ⟨front, value, ⟨⟨rest, rfl⟩, hne⟩, hvalue, hscalar⟩ := h
  rw [at?_append, hvalue]
  exact at?_eq_none_of_not_isMapping hscalar (by simpa using hne)

/-! ### What is laid over a datum -/

/-- What the upper datum has at a way is laid over what the lower one has there. -/
theorem at?_layered_of_some {way : List String} :
    ∀ {d value : Datum}, d.isKeyed = true → d.at? way = some value → ∀ below? : Option Datum,
      (layered below? d).at? way = some (layered (below?.bind (Datum.at? way)) value) := by
  induction way with
  | nil =>
    intro d value _ hvalue below?
    cases hvalue
    cases below? <;> rfl
  | cons name rest ih =>
    intro d value h hvalue below?
    cases d with
    | dict es =>
      rw [at?_cons_dict] at hvalue
      obtain ⟨inner, hinner, hrest⟩ := Option.bind_eq_some_iff.mp hvalue
      rw [layered_dict h, at?_cons_dict, lookup?_merge h, hinner, bind_at?_cons]
      exact ih (isKeyed_of_lookup? h hinner) hrest _
    | _ => cases hvalue

/-- Where the upper datum has nothing, and no value in front, the lower one is seen. -/
theorem at?_layered_of_none {way : List String} :
    ∀ {d : Datum}, d.isKeyed = true → d.at? way = none → ¬ Barred way d →
      ∀ below? : Option Datum, (layered below? d).at? way = below?.bind (Datum.at? way) := by
  induction way with
  | nil => intro d _ hnone; cases hnone
  | cons name rest ih =>
    intro d h hnone hfree below?
    cases hmapping : d.isMapping with
    | false =>
      refine absurd ⟨[], d, ⟨List.nil_prefix, ?_⟩, rfl, hmapping⟩ hfree
      exact (List.cons_ne_nil name rest).symm
    | true =>
      obtain ⟨es, rfl⟩ := isMapping_iff.mp hmapping
      rw [layered_dict h, at?_cons_dict, lookup?_merge h, bind_at?_cons]
      cases hinner : lookup? name es with
      | none => rfl
      | some inner =>
        rw [at?_cons_dict, hinner, Option.bind_some] at hnone
        exact ih (isKeyed_of_lookup? h hinner) hnone (fun hbar => hfree (hbar.cons hinner)) _

/-- A value in front hides the lower datum as well. -/
theorem Barred.at?_layered {way : List String} {d : Datum} (hbar : Barred way d)
    (h : d.isKeyed = true) (below? : Option Datum) : (layered below? d).at? way = none := by
  obtain ⟨front, value, hends, hvalue, hscalar⟩ := hbar
  refine Barred.at? ⟨front, value, hends, ?_, hscalar⟩
  rw [at?_layered_of_some h hvalue, layered_of_not_isMapping hscalar]

/-! ### Merging -/

/-- What stands at a way of a mapping that is made of a lower and an upper one. -/
structure OverlaidAt (way : List String) (lower upper merged : Datum) : Prop where
  value : ∀ d, upper.at? way = some d → d.isMapping = false → merged.at? way = some d
  barred : Barred way upper → merged.at? way = none
  through : upper.at? way = none → ¬ Barred way upper → merged.at? way = lower.at? way
  mapping : ∀ inside, upper.at? way = some (dict inside) → merged.at? way =
    some (dict (match lower.at? way with
      | some (dict under) => merge under inside
      | _ => inside))

/-- **Merging, way by way**: at each way stands what the upper mapping has there, laid over what the
lower one has, unless a value stands in front.  So nothing below and nothing above leave a mapping
as it is, and a mapping that was laid over once is there. -/
theorem merge_overlaidAt {updates : Entries} (h : areKeyed updates = true) (base : Entries) :
    (∀ way, way ≠ [] → OverlaidAt way (dict base) (dict updates) (dict (merge base updates))) ∧
      merge [] updates = updates ∧ merge base [] = base ∧
        merge (merge base updates) updates = merge base updates := by
  refine ⟨fun way _ => ?_, merge_empty h, merge_nil base, merge_merge h base⟩
  have hkeyed : (dict updates).isKeyed = true := h
  have hmerged : layered (some (dict base)) (dict updates) = dict (merge base updates) :=
    layered_dict h _
  rw [← hmerged]
  refine ⟨fun d hd hscalar => ?_, fun hbar => hbar.at?_layered hkeyed _, fun hnone hfree => ?_,
    fun inside hinside => ?_⟩
  · rw [at?_layered_of_some hkeyed hd, layered_of_not_isMapping hscalar]
  · exact at?_layered_of_none hkeyed hnone hfree _
  · rw [at?_layered_of_some hkeyed hinside, Option.bind_some]
    cases Datum.at? way (dict base) with
    | none => rw [layered_none]
    | some d => cases d <;> simp only [layered]

/-- Text over a mapping hides it, a mapping over text replaces it, and what neither of them touches
is seen two steps down. -/
theorem merge_overlaidAt_conflicts :
    areKeyed [("a", .dict [("x", .dict [])]), ("b", .str "plain")] = true ∧
      merge [("a", .dict [("x", .int 1), ("z", .bool true)]), ("b", .dict [("y", .int 2)])]
          [("a", .dict [("x", .dict [])]), ("b", .str "plain")] =
        [("a", .dict [("x", .dict []), ("z", .bool true)]), ("b", .str "plain")] ∧
      OverlaidAt ["b", "y"]
        (dict [("a", .dict [("x", .int 1), ("z", .bool true)]), ("b", .dict [("y", .int 2)])])
        (dict [("a", .dict [("x", .dict [])]), ("b", .str "plain")])
        (dict [("a", .dict [("x", .dict []), ("z", .bool true)]), ("b", .str "plain")]) :=
  ⟨rfl, rfl, (merge_overlaidAt rfl _).1 ["b", "y"] (List.cons_ne_nil _ _)⟩

end TestScaffold.Datum
