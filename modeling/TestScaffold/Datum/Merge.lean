/-
  TestScaffold/Datum/Merge.lean
  =============================
  Mappings laid over one another.

  Where both layers hold a mapping for a key the two are merged in turn;
  anywhere else the upper layer wins.  A null stands for a choice that was not
  made, and can be taken out of a layer before it is laid over another.
-/
import TestScaffold.Datum

namespace TestScaffold.Datum

mutual

/-- A datum laid over what stands below it, if anything does. -/
def layered (below? : Option Datum) : Datum → Datum
  | dict updates => match below? with
    | some (dict base) => dict (merge base updates)
    | _ => dict updates
  | d => d

/-- Entries laid over those of a base. -/
def merge (base : Entries) : Entries → Entries
  | [] => base
  | (key, value) :: rest => merge (insert key (layered (lookup? key base) value) base) rest

end

mutual

/-- A datum whose mappings hold no null. -/
def stripped : Datum → Datum
  | dict entries => dict (withoutNulls entries)
  | d => d

/-- The entries that are not null, at any depth of mappings; lists stay as they are. -/
def withoutNulls : Entries → Entries
  | [] => []
  | (_, null) :: rest => withoutNulls rest
  | (key, value) :: rest => (key, stripped value) :: withoutNulls rest

end

end TestScaffold.Datum
