/-
  TestScaffold/Datum/Equality.lean
  ================================
  Whether two data are the same can be decided, part by part.
-/
import TestScaffold.Datum

namespace TestScaffold.Datum

mutual

/-- Whether two data are the same. -/
def same : Datum → Datum → Bool
  | null, null => true
  | bool a, bool b => a == b
  | int m, int n => m == n
  | float x, float y => x == y
  | str s, str t => s == t
  | instant s, instant t => s == t
  | binary bs, binary cs => bs == cs
  | list as, list bs => sameItems as bs
  | dict as, dict bs => sameEntries as bs
  | _, _ => false

/-- Whether two lists have the same items. -/
def sameItems : List Datum → List Datum → Bool
  | [], [] => true
  | a :: as, b :: bs => same a b && sameItems as bs
  | _, _ => false

/-- Whether two mappings have the same entries in the same order. -/
def sameEntries : List (String × Datum) → List (String × Datum) → Bool
  | [], [] => true
  | (k, a) :: as, (l, b) :: bs => k == l && same a b && sameEntries as bs
  | _, _ => false

end

mutual

theorem same_iff : ∀ {a b : Datum}, same a b = true ↔ a = b
  | a, b => by
    cases a with
    | list as => cases b <;> simp [same, @sameItems_iff as]
    | dict as => cases b <;> simp [same, @sameEntries_iff as]
    | _ => cases b <;> simp [same]

theorem sameItems_iff : ∀ {as bs : List Datum}, sameItems as bs = true ↔ as = bs
  | [], bs => by cases bs <;> simp [sameItems]
  | a :: as, bs => by
    cases bs with
    | nil => simp [sameItems]
    | cons b bs => simp [sameItems, @same_iff a b, @sameItems_iff as bs]

theorem sameEntries_iff :
    ∀ {as bs : List (String × Datum)}, sameEntries as bs = true ↔ as = bs
  | [], bs => by cases bs <;> simp [sameEntries]
  | (k, a) :: as, bs => by
    cases bs with
    | nil => simp [sameEntries]
    | cons b bs =>
      obtain ⟨l, b⟩ := b
      simp [sameEntries, @same_iff a b, @sameEntries_iff as bs]

end

instance : DecidableEq Datum := fun _ _ => decidable_of_iff _ same_iff

end TestScaffold.Datum
