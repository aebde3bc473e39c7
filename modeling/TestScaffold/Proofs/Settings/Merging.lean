/-
  TestScaffold/Proofs/Settings/Merging.lean
  =========================================
  **What stands at a way once mappings are laid over one another.**

  A datum is seen through the ways that lead into it (`Datum.at?`).  Merging is
  then a law about single keys: a key of the upper layer holds the upper value,
  laid over what the key held below, and any other key holds what it held below
  (`Datum.lookup?_merge`).  Two steps down, where the fields of the sections are,
  the upper value wins unless both layers have a mapping there
  (`Datum.at?_merge`).

  The upper layer is read entry by entry, so the law wants its keys to be
  distinct, as the keys of a mapping are (`Datum.isKeyed`).
-/
import TestScaffold.Datum.Merge
import TestScaffold.Proofs.Settings.Nesting

namespace TestScaffold.Datum

/-! ### Ways into a datum -/

/-- What stands at the end of a way through mappings. -/
def at? : List String → Datum → Option Datum
  | [], d => some d
  | name :: rest, dict es => (lookup? name es).bind (at? rest)
  | _ :: _, _ => none

theorem at?_cons_dict (name : String) (rest : List String) (es : Entries) :
    at? (name :: rest) (dict es) = (lookup? name es).bind (at? rest) := rfl

@[simp] theorem at?_singleton_dict (name : String) (es : Entries) :
    at? [name] (dict es) = lookup? name es := by
  rw [at?_cons_dict]
  cases lookup? name es <;> rfl

/-- The entries of a mapping; anything else has none. -/
def entriesOf : Option Datum → Entries
  | some (dict es) => es
  | _ => []

/-- Two steps into a datum. -/
theorem at?_pair (outer inner : String) (es : Entries) :
    at? [outer, inner] (dict es) = lookup? inner (entriesOf (lookup? outer es)) := by
  rw [at?_cons_dict]
  cases lookup? outer es with
  | none => rfl
  | some d =>
    cases d with
    | dict inside => exact at?_singleton_dict inner inside
    | _ => rfl

theorem isMapping_iff {d : Datum} : d.isMapping = true ↔ ∃ es, d = dict es := by
  cases d with
  | dict es => simp [isMapping]
  | _ => simp [isMapping]

/-! ### Distinct keys -/

mutual

/-- Whether no mapping that a way leads to has a key twice. -/
def isKeyed : Datum → Bool
  | dict es => areKeyed es
  | _ => true

/-- Whether no key comes twice among entries, nor in a mapping that a way leads to. -/
def areKeyed : Entries → Bool
  | [] => true
  | (key, value) :: rest => (lookup? key rest).isNone && isKeyed value && areKeyed rest

end

theorem areKeyed_cons {key : String} {value : Datum} {rest : Entries} :
    areKeyed ((key, value) :: rest) = true ↔
      lookup? key rest = none ∧ value.isKeyed = true ∧ areKeyed rest = true := by
  simp [areKeyed, and_assoc]

theorem isKeyed_of_lookup? {key : String} {value : Datum} {es : Entries}
    (h : areKeyed es = true) (hvalue : lookup? key es = some value) : value.isKeyed = true := by
  induction es with
  | nil => cases hvalue
  | cons head rest ih =>
    obtain ⟨name, first⟩ := head
    obtain ⟨_, hfirst, hrest⟩ := areKeyed_cons.mp h
    simp only [lookup?] at hvalue
    split at hvalue
    · cases hvalue
      exact hfirst
    · exact ih hrest hvalue

theorem areKeyed_insert {key : String} {value : Datum} {es : Entries} (h : areKeyed es = true)
    (hvalue : value.isKeyed = true) : areKeyed (insert key value es) = true := by
  induction es with
  | nil => exact areKeyed_cons.mpr ⟨rfl, hvalue, rfl⟩
  | cons head rest ih =>
    obtain ⟨name, first⟩ := head
    obtain ⟨hname, hfirst, hrest⟩ := areKeyed_cons.mp h
    simp only [insert]
    split
    · rename_i heq
      subst heq
      exact areKeyed_cons.mpr ⟨hname, hvalue, hrest⟩
    · rename_i hne
      refine areKeyed_cons.mpr ⟨?_, hfirst, ih hrest⟩
      rw [lookup?_insert, if_neg hne]
      exact hname

/-! ### Merging -/

@[simp] theorem layered_of_not_isMapping {d : Datum} (h : d.isMapping = false)
    (below? : Option Datum) : layered below? d = d := by
  cases d with
  | dict es => cases h
  | _ => rfl

/-- Over nothing a datum stays as it is. -/
@[simp] theorem layered_none (d : Datum) : layered none d = d := by
  cases d with
  | dict es => simp only [layered]
  | _ => rfl

/-- A mapping that is laid over anything leaves a mapping, and only a mapping does. -/
@[simp] theorem isMapping_layered (below? : Option Datum) (d : Datum) :
    (layered below? d).isMapping = d.isMapping := by
  cases d with
  | dict es =>
    simp only [layered]
    split <;> rfl
  | _ => rfl

@[simp] theorem merge_nil (base : Entries) : merge base [] = base := rfl

/-- **What a key holds after merging.** -/
theorem lookup?_merge {updates : Entries} (h : areKeyed updates = true) (base : Entries)
    (key : String) :
    lookup? key (merge base updates) =
      match lookup? key updates with
      | some value => some (layered (lookup? key base) value)
      | none => lookup? key base := by
  induction updates generalizing base with
  | nil => rfl
  | cons head rest ih =>
    obtain ⟨name, value⟩ := head
    obtain ⟨hname, _, hrest⟩ := areKeyed_cons.mp h
    rw [merge, ih hrest, lookup?_insert]
    by_cases heq : name = key
    · subst heq
      simp [lookup?, hname]
    · simp [lookup?, heq, Ne.symm heq]

/-- What a key holds inside a mapping that is laid over entries, or over nothing. -/
theorem lookup?_layered {updates : Entries} (h : areKeyed updates = true) {below? : Option Datum}
    (hbelow : below?.all isMapping = true) (key : String) :
    lookup? key (entriesOf (some (layered below? (dict updates)))) =
      match lookup? key updates with
      | some value => some (layered (lookup? key (entriesOf below?)) value)
      | none => lookup? key (entriesOf below?) := by
  cases below? with
  | none =>
    simp only [layered_none, entriesOf, lookup?]
    cases lookup? key updates <;> rfl
  | some d =>
    obtain ⟨base, rfl⟩ := isMapping_iff.mp (Option.all_some ▸ hbelow)
    exact lookup?_merge h base key

/-- **What stands two steps down after merging**, where neither layer has anything but mappings
one step down. -/
theorem at?_merge {base updates : Entries} (h : areKeyed updates = true) {outer : String}
    (hbase : (lookup? outer base).all isMapping = true)
    (hupdates : (lookup? outer updates).all isMapping = true) (inner : String) :
    at? [outer, inner] (dict (merge base updates)) =
      match at? [outer, inner] (dict updates) with
      | some value => some (layered (at? [outer, inner] (dict base)) value)
      | none => at? [outer, inner] (dict base) := by
  rw [at?_pair, at?_pair, at?_pair, lookup?_merge h]
  cases hupper : lookup? outer updates with
  | none => rfl
  | some upper =>
    rw [hupper, Option.all_some] at hupdates
    obtain ⟨us, rfl⟩ := isMapping_iff.mp hupdates
    exact lookup?_layered (isKeyed_of_lookup? h hupper) hbase inner

/-! ### Nulls taken out -/

/-- Whether a datum is the null. -/
def isNull : Datum → Bool
  | null => true
  | _ => false

theorem withoutNulls_cons (key : String) (value : Datum) (rest : Entries) :
    withoutNulls ((key, value) :: rest) =
      if value.isNull then withoutNulls rest else (key, value.stripped) :: withoutNulls rest := by
  cases value <;> rfl

/-- **What a key holds once the nulls are out.** -/
theorem lookup?_withoutNulls {es : Entries} (h : areKeyed es = true) (key : String) :
    lookup? key (withoutNulls es) = ((lookup? key es).filter (!·.isNull)).map stripped := by
  induction es with
  | nil => rfl
  | cons head rest ih =>
    obtain ⟨name, value⟩ := head
    obtain ⟨hname, _, hrest⟩ := areKeyed_cons.mp h
    rw [withoutNulls_cons]
    by_cases heq : name = key
    · subst heq
      have habsent : lookup? name (withoutNulls rest) = none := by rw [ih hrest, hname]; rfl
      cases hnull : value.isNull <;> simp [lookup?, Option.filter_some, hnull, habsent]
    · cases value.isNull <;> simp [lookup?, heq, ih hrest]

mutual

theorem isKeyed_stripped : ∀ {d : Datum}, d.isKeyed = true → d.stripped.isKeyed = true
  | dict _, h => areKeyed_withoutNulls h
  | null, _ | bool _, _ | int _, _ | float _, _ | str _, _ | instant _, _ | binary _, _
  | list _, _ => rfl

theorem areKeyed_withoutNulls :
    ∀ {es : Entries}, areKeyed es = true → areKeyed (withoutNulls es) = true
  | [], _ => rfl
  | (key, value) :: rest, h => by
    obtain ⟨hkey, hvalue, hrest⟩ := areKeyed_cons.mp h
    rw [withoutNulls_cons]
    split
    · exact areKeyed_withoutNulls hrest
    · refine areKeyed_cons.mpr ⟨?_, isKeyed_stripped hvalue, areKeyed_withoutNulls hrest⟩
      rw [lookup?_withoutNulls hrest, hkey]
      rfl

end

/-- **What stands two steps down once the nulls are out**, where nothing but mappings stand one step
down. -/
theorem at?_withoutNulls {es : Entries} (h : areKeyed es = true) {outer : String}
    (houter : (lookup? outer es).all isMapping = true) (inner : String) :
    at? [outer, inner] (dict (withoutNulls es)) =
      ((at? [outer, inner] (dict es)).filter (!·.isNull)).map stripped := by
  rw [at?_cons_dict, at?_cons_dict, lookup?_withoutNulls h]
  cases hvalue : lookup? outer es with
  | none => rfl
  | some value =>
    rw [hvalue, Option.all_some] at houter
    obtain ⟨inside, rfl⟩ := isMapping_iff.mp houter
    have hinside : areKeyed inside = true := isKeyed_of_lookup? h hvalue
    simp [Option.filter_some, isNull, stripped, lookup?_withoutNulls hinside]

end TestScaffold.Datum
