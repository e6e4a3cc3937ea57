/-
Pictures under a change of names. A picture lists each name once, so a
change that makes two names equal would merge two entities; one that does
not, on the names in use, changes the picture in the names alone
(`Entry.rename_picture`). Restoring the names of a drawing is such a
change, and so a drawing can be compared with the document entity by
entity.
-/
import FreeLabel.Proofs.Er.Document

namespace FreeLabel

open Drawing (ErDrawing Entity Relation Row)

-- ============================================================= renaming

namespace Drawing

/-- A row with another name in its first column. -/
def Row.rename (f : Text → Text) (row : Row) : Row := { row with first := f row.first }

/-- An entity with another name, and its rows as well. -/
def Entity.rename (f : Text → Text) (e : Entity) : Entity where
  name := f e.name
  rows := e.rows.map (Row.rename f)

/-- A relationship with other names at its ends. -/
def Relation.rename (f : Text → Text) (r : Relation) : Relation :=
  { r with left := f r.left, right := f r.right }

/-- A diagram in which every name is replaced. -/
def ErDrawing.rename (f : Text → Text) (d : ErDrawing) : ErDrawing where
  entities := d.entities.map (Entity.rename f)
  relations := d.relations.map (Relation.rename f)

end Drawing

namespace Er.Entry

/-- An entry in which every name is replaced. -/
def rename (f : Text → Text) : Entry → Entry
  | block name rows => block (f name) (rows.map (Row.rename f))
  | relation r => relation (r.rename f)

theorem names_rename (f : Text → Text) (e : Entry) :
    (e.rename f).names = e.names.map f := by
  cases e <;> rfl

theorem relation?_rename (f : Text → Text) (e : Entry) :
    (e.rename f).relation? = e.relation?.map (Relation.rename f) := by
  cases e <;> rfl

/-- Rows move with the name of their entity. -/
theorem rowsOf_rename {f : Text → Text} {name : Text} {e : Entry}
    (hf : ∀ other ∈ e.names, f other = f name → other = name) :
    (e.rename f).rowsOf (f name) = (e.rowsOf name).map (Row.rename f) := by
  cases e with
  | relation r => rfl
  | block entity rows =>
      rw [rename, rowsOf, rowsOf]
      by_cases h : entity = name
      · rw [if_pos h, if_pos (congrArg f h)]
      · rw [if_neg h, if_neg fun heq => h (hf entity List.mem_cons_self heq), List.map_nil]

end Er.Entry

-- ============================================================= pictures

/-- The order of first mention does not depend on the names. -/
theorem eraseDups_map {f : Text → Text} {names : List Text}
    (hf : ∀ a ∈ names, ∀ b ∈ names, f a = f b → a = b) :
    (names.map f).eraseDups = names.eraseDups.map f := by
  match names, hf with
  | [], _ => rfl
  | a :: names, hf =>
      have hfilter : (names.map f).filter (fun b => !b == f a)
          = (names.filter fun b => !b == a).map f := by
        rw [List.filter_map]
        refine congrArg _ (List.filter_congr fun b hb => ?_)
        by_cases h : b = a
        · simp [h]
        · have hne : f b ≠ f a := fun heq =>
            h (hf b (List.mem_cons_of_mem a hb) a List.mem_cons_self heq)
          rw [Function.comp, beq_eq_false_iff_ne.2 hne, beq_eq_false_iff_ne.2 h]
      have hrest : ∀ b ∈ names.filter (fun b => !b == a), b ∈ a :: names :=
        fun b hb => List.mem_cons_of_mem a (List.mem_filter.1 hb).1
      rw [List.map_cons, List.eraseDups_cons, List.eraseDups_cons, hfilter, List.map_cons,
        eraseDups_map fun b hb c hc => hf b (hrest b hb) c (hrest c hc)]
termination_by names.length
decreasing_by
  exact Nat.lt_succ_of_le (List.length_filter_le _ _)

/-- A picture with other names is the picture of entries with other names,
as long as no two entities get one name. -/
theorem Er.Entry.rename_picture {f : Text → Text} {es : List Er.Entry}
    (hf : ∀ a ∈ es.flatMap names, ∀ b ∈ es.flatMap names, f a = f b → a = b) :
    (picture es).rename f = picture (es.map (rename f)) := by
  have hnames : (es.map (rename f)).flatMap names = (es.flatMap names).map f := by
    rw [List.flatMap_map, List.map_flatMap]
    simp only [names_rename]
  have hrows : ∀ name ∈ es.flatMap names,
      (es.map (rename f)).flatMap (rowsOf (f name))
        = (es.flatMap (rowsOf name)).map (Row.rename f) := by
    intro name hname
    rw [List.flatMap_map, List.map_flatMap, List.flatMap_def, List.flatMap_def]
    refine congrArg _ (List.map_congr_left fun e he => rowsOf_rename fun other hother => ?_)
    exact hf other (List.mem_flatMap.2 ⟨e, he, hother⟩) name hname
  unfold picture ErDrawing.rename
  congr 1
  · rw [hnames, eraseDups_map hf, List.map_map, List.map_map]
    refine List.map_congr_left fun name hname => ?_
    show Entity.mk _ _ = Entity.mk _ _
    rw [hrows name (List.mem_eraseDups.1 hname)]
  · rw [List.map_filterMap, List.filterMap_map]
    refine congrFun (congrArg _ (funext fun e => ?_)) es
    exact (relation?_rename f e).symm

end FreeLabel
