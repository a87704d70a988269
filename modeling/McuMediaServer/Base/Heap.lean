import Mathlib.Data.Set.Lattice
import Mathlib.Logic.Function.Basic
import Mathlib.Logic.Relation

/-!
# Objects that refer to each other

A heap is a cell for each address, and cells refer to other cells. What is read from an object is
`Local` when it depends only on the cells that are reached from it, so that two objects that reach no
cell in common (`Apart`) are changed independently of each other (`Separate.independent`).

Copying an object allocates cells (`Extends`) that refer to nothing that was there before. `Makes`
says so of one object, and `Clones` of a function that copies. What was read of the parts that were
allocated stays (`Step.and`), so that the clone of an object is built from the clones of its parts.
-/

namespace McuMediaServer

/-- A kind of cells, with the addresses that a cell refers to. -/
class Refers (C : Type) where
  refs : C → List Nat

export Refers (refs)

/-- A cell for each address, and the first address that is free. -/
structure Heap (C : Type) where
  cell : Nat → C
  next : Nat

namespace Heap

variable {C V W : Type}

/-- Change a cell. -/
def write (h : Heap C) (l : Nat) (c : C) : Heap C := { h with cell := Function.update h.cell l c }

/-- Allocate a cell. -/
def new (h : Heap C) (c : C) : Nat × Heap C :=
  (h.next, { cell := Function.update h.cell h.next c, next := h.next + 1 })

theorem cell_write_self (h : Heap C) (l : Nat) (c : C) : (h.write l c).cell l = c :=
  Function.update_self _ _ _

theorem cell_write_of_ne {h : Heap C} {l x : Nat} (hne : x ≠ l) (c : C) :
    (h.write l c).cell x = h.cell x :=
  Function.update_of_ne hne _ _

theorem cell_new_self (h : Heap C) (c : C) : (h.new c).2.cell h.next = c :=
  Function.update_self _ _ _

theorem cell_new_of_ne {h : Heap C} {x : Nat} (hne : x ≠ h.next) (c : C) :
    (h.new c).2.cell x = h.cell x :=
  Function.update_of_ne hne _ _

/-- Read a cell. -/
def look (read : C → V) (h : Heap C) (l : Nat) : V := read (h.cell l)

theorem look_new (read : C → V) (h : Heap C) (c : C) : look read (h.new c).2 h.next = read c := by
  rw [look, cell_new_self]

variable [Refers C] {h h' h'' : Heap C} {a b l x base : Nat}

/-- An address is reached from another one. -/
abbrev Reach (h : Heap C) : Nat → Nat → Prop :=
  Relation.ReflTransGen fun l x => x ∈ refs (h.cell l)

/-- What is allocated refers to what is allocated. -/
def Closed (h : Heap C) : Prop := ∀ l < h.next, ∀ x ∈ refs (h.cell l), x < h.next

/-- Nothing is reached from both. -/
def Apart (h : Heap C) (a b : Nat) : Prop := ∀ x, h.Reach a x → ¬h.Reach b x

/-- What is reached from an address is the same. -/
def Agree (h h' : Heap C) (l : Nat) : Prop := ∀ x, h.Reach l x → h'.cell x = h.cell x

/-- What is read depends only on what is reached. -/
def Local (view : Heap C → Nat → V) : Prop :=
  ∀ {h h' : Heap C} {l : Nat}, h.Agree h' l → view h' l = view h l

theorem Closed.reach_lt (hclosed : h.Closed) (hl : l < h.next) (hreach : h.Reach l x) :
    x < h.next := by
  induction hreach with
  | refl => exact hl
  | tail _ hedge ih => exact hclosed _ ih _ hedge

theorem Agree.refs (hagree : h.Agree h' l) (hx : x ∈ refs (h.cell l)) : h.Agree h' x :=
  fun y hy => hagree y (hy.head hx)

theorem Agree.reach (hagree : h.Agree h' l) (hreach : h'.Reach l x) : h.Reach l x := by
  induction hreach with
  | refl => exact .refl
  | tail _ hedge ih =>
    rw [hagree _ ih] at hedge
    exact ih.tail hedge

theorem Apart.symm (hapart : h.Apart a b) : h.Apart b a := fun x hb ha => hapart x ha hb

/-! ## Modifications -/

/-- The object at `a` is modified, with nothing that reaches what the object at `b` reaches. -/
inductive Modifies (h : Heap C) (a b : Nat) : Heap C → Prop
  | write {l : Nat} {c : C} : h.Reach a l → (∀ x ∈ refs c, x < h.next ∧ h.Apart x b) →
      Modifies h a b (h.write l c)
  | new {c : C} : (∀ x ∈ refs c, x < h.next ∧ h.Apart x b) → Modifies h a b (h.new c).2

/-- Two objects that have nothing in common. -/
structure Separate (h : Heap C) (a b : Nat) : Prop where
  closed : h.Closed
  left : a < h.next
  right : b < h.next
  apart : h.Apart a b

theorem Separate.symm (hsep : h.Separate a b) : h.Separate b a :=
  ⟨hsep.closed, hsep.right, hsep.left, hsep.apart.symm⟩

variable {c : C}

theorem closed_write (hclosed : h.Closed) (hc : ∀ x ∈ refs c, x < h.next) : (h.write l c).Closed := by
  intro y hy x hx
  rcases eq_or_ne y l with rfl | hne
  · rw [cell_write_self] at hx
    exact hc x hx
  · rw [cell_write_of_ne hne] at hx
    exact hclosed y hy x hx

theorem closed_new (hclosed : h.Closed) (hc : ∀ x ∈ refs c, x < h.next) : (h.new c).2.Closed := by
  intro y hy x hx
  rcases eq_or_ne y h.next with rfl | hne
  · rw [cell_new_self] at hx
    exact (hc x hx).trans (Nat.lt_succ_self _)
  · rw [cell_new_of_ne hne] at hx
    exact (hclosed y ((Nat.le_of_lt_succ hy).lt_of_ne hne) x hx).trans (Nat.lt_succ_self _)

theorem agree_new (hclosed : h.Closed) (hl : l < h.next) (c : C) : h.Agree (h.new c).2 l := by
  intro x hx
  rw [cell_new_of_ne (hclosed.reach_lt hl hx).ne]

theorem Modifies.agree (hmod : h.Modifies a b h') (hsep : h.Separate a b) : h.Agree h' b := by
  cases hmod with
  | write hl _ =>
    intro x hx
    rw [cell_write_of_ne]
    rintro rfl
    exact hsep.apart _ hl hx
  | new _ => exact agree_new hsep.closed hsep.right _

/-- What a modification keeps. -/
theorem Modifies.separate (hmod : h.Modifies a b h') (hsep : h.Separate a b) : h'.Separate a b := by
  have hb := hmod.agree hsep
  cases hmod with
  | @write l c hl hc =>
    refine ⟨closed_write hsep.closed fun x hx => (hc x hx).1, hsep.left, hsep.right, fun x hx => ?_⟩
    have hapart : h.Apart x b := by
      induction hx with
      | refl => exact hsep.apart
      | @tail y z _ hedge ih =>
        rcases eq_or_ne y l with rfl | hne
        · rw [cell_write_self] at hedge
          exact (hc z hedge).2
        · rw [cell_write_of_ne hne] at hedge
          exact fun w hw => ih w (hw.head hedge)
    exact fun hreach => hapart x .refl (hb.reach hreach)
  | @new c hc =>
    have ha := agree_new hsep.closed hsep.left c
    exact ⟨closed_new hsep.closed fun x hx => (hc x hx).1, hsep.left.trans (Nat.lt_succ_self _),
      hsep.right.trans (Nat.lt_succ_self _),
      fun x hx hbx => hsep.apart x (ha.reach hx) (hb.reach hbx)⟩

/-- Modifications of one object, one after the other. -/
abbrev Modified (a b : Nat) : Heap C → Heap C → Prop :=
  Relation.ReflTransGen fun h h' => h.Modifies a b h'

/-- Modifications of either object, in any order. -/
abbrev Interleaved (a b : Nat) : Heap C → Heap C → Prop :=
  Relation.ReflTransGen fun h h' => h.Modifies a b h' ∨ h.Modifies b a h'

theorem Interleaved.separate (hrun : Interleaved a b h h') (hsep : h.Separate a b) :
    h'.Separate a b := by
  induction hrun with
  | refl => exact hsep
  | tail _ hmod ih =>
    rcases hmod with hmod | hmod
    · exact hmod.separate ih
    · exact (hmod.separate ih.symm).symm

theorem Modified.view_eq {view : Heap C → Nat → V} (hlocal : Local view)
    (hrun : Modified a b h h') (hsep : h.Separate a b) : view h' b = view h b := by
  have hboth : h'.Separate a b ∧ view h' b = view h b := by
    induction hrun with
    | refl => exact ⟨hsep, rfl⟩
    | tail _ hmod ih =>
      exact ⟨hmod.separate ih.1, (hlocal (hmod.agree ih.1)).trans ih.2⟩
  exact hboth.2

/-- At whatever point, modifying one of two objects leaves what is read from the other. -/
def Independent (view : Heap C → Nat → V) (h : Heap C) (a b : Nat) : Prop :=
  ∀ h', Interleaved a b h h' → ∀ h'',
    (Modified a b h' h'' → view h'' b = view h' b) ∧ (Modified b a h' h'' → view h'' a = view h' a)

/-- **Two objects that have nothing in common** are independent of each other. -/
theorem Separate.independent (hsep : h.Separate a b) {view : Heap C → Nat → V}
    (hlocal : Local view) : Independent view h a b := by
  intro h' hrun h''
  have hsep' := hrun.separate hsep
  exact ⟨fun hmod => hmod.view_eq hlocal hsep', fun hmod => hmod.view_eq hlocal hsep'.symm⟩

/-! ## Clones -/

/-- Cells have been allocated, which refer to nothing below an address. -/
structure Extends (base : Nat) (h h' : Heap C) : Prop where
  le : h.next ≤ h'.next
  keeps : ∀ l < h.next, h'.cell l = h.cell l
  refs : ∀ l, h.next ≤ l → l < h'.next → ∀ x ∈ refs (h'.cell l), base ≤ x ∧ x < h'.next

namespace Extends

theorem refl (h : Heap C) : Extends base h h :=
  ⟨le_rfl, fun _ _ => rfl, fun _ hle hlt => absurd hlt hle.not_gt⟩

theorem trans (h₁ : Extends base h h') (h₂ : Extends base h' h'') : Extends base h h'' := by
  refine ⟨h₁.le.trans h₂.le, fun l hl => ?_, fun l hle hlt x hx => ?_⟩
  · rw [h₂.keeps l (hl.trans_le h₁.le), h₁.keeps l hl]
  · rcases Nat.lt_or_ge l h'.next with hold | hnew
    · rw [h₂.keeps l hold] at hx
      obtain ⟨hbase, hx⟩ := h₁.refs l hle hold x hx
      exact ⟨hbase, hx.trans_le h₂.le⟩
    · exact h₂.refs l hnew hlt x hx

theorem closed (hext : Extends base h h') (hclosed : h.Closed) : h'.Closed := by
  intro l hl x hx
  rcases Nat.lt_or_ge l h.next with hold | hnew
  · rw [hext.keeps l hold] at hx
    exact (hclosed l hold x hx).trans_le hext.le
  · exact (hext.refs l hnew hl x hx).2

theorem agree (hext : Extends base h h') (hclosed : h.Closed) (hl : l < h.next) : h.Agree h' l :=
  fun _ hx => hext.keeps _ (hclosed.reach_lt hl hx)

theorem view_eq (hext : Extends base h h') (hclosed : h.Closed) (hl : l < h.next)
    {view : Heap C → Nat → V} (hlocal : Local view) : view h' l = view h l :=
  hlocal (hext.agree hclosed hl)

theorem new (hc : ∀ x ∈ Refers.refs c, base ≤ x ∧ x < h.next) : Extends base h (h.new c).2 := by
  refine ⟨Nat.le_succ _, fun l hl => cell_new_of_ne hl.ne c, fun l hle hlt x hx => ?_⟩
  have heq : l = h.next := (Nat.le_of_lt_succ hlt).antisymm hle
  rw [heq, cell_new_self] at hx
  exact ⟨(hc x hx).1, (hc x hx).2.trans (Nat.lt_succ_self _)⟩

/-- What was allocated reaches nothing that was there. -/
theorem separate (hext : Extends h.next h h') (hclosed : h.Closed) (ha : a < h.next)
    (hb : h.next ≤ b) (hb' : b < h'.next) : h'.Separate a b := by
  refine ⟨hext.closed hclosed, ha.trans_le hext.le, hb', fun x hax hbx => ?_⟩
  have hold : x < h.next := hclosed.reach_lt ha ((hext.agree hclosed ha).reach hax)
  have hnew : h.next ≤ x ∧ x < h'.next := by
    clear hax hold
    induction hbx with
    | refl => exact ⟨hb, hb'⟩
    | tail _ hedge ih => exact hext.refs _ ih.1 ih.2 _ hedge
  omega

end Extends

/-- What stays when cells are allocated. -/
def Stable (base : Nat) (Q : Heap C → Prop) : Prop :=
  ∀ {h h' : Heap C}, h.Closed → Extends base h h' → Q h → Q h'

/-- Cells have been allocated, and something holds that stays. -/
structure Step (base : Nat) (h h' : Heap C) (Q : Heap C → Prop) : Prop where
  ext : Extends base h h'
  stable : Stable base Q
  holds : Q h'

theorem Step.and {Q R : Heap C → Prop} (hQ : Step base h h' Q) (hclosed : h.Closed)
    (hR : Step base h' h'' R) : Step base h h'' fun h => Q h ∧ R h :=
  ⟨hQ.ext.trans hR.ext, fun hc he hboth => ⟨hQ.stable hc he hboth.1, hR.stable hc he hboth.2⟩,
    hQ.stable (hQ.ext.closed hclosed) hR.ext hQ.holds, hR.holds⟩

/-- An object was allocated, and a value is read from it. -/
structure Held (base : Nat) (view : Heap C → Nat → V) (l : Nat) (v : V) (h : Heap C) : Prop where
  le : base ≤ l
  lt : l < h.next
  view_eq : view h l = v

/-- An object was allocated, if there is one, and a value is read from it. -/
structure HeldOption (base : Nat) (view : Heap C → Nat → V) (r : Option Nat) (v : Option V)
    (h : Heap C) : Prop where
  fresh : ∀ l ∈ r, base ≤ l ∧ l < h.next
  view_eq : r.map (view h) = v

theorem stable_held {view : Heap C → Nat → V} (hlocal : Local view) (l : Nat) (v : V) :
    Stable base (Held base view l v) := by
  intro h h' hclosed hext hheld
  exact ⟨hheld.le, hheld.lt.trans_le hext.le,
    (hext.view_eq hclosed hheld.lt hlocal).trans hheld.view_eq⟩

theorem stable_heldOption {view : Heap C → Nat → V} (hlocal : Local view) (r : Option Nat)
    (v : Option V) : Stable base (HeldOption base view r v) := by
  intro h h' hclosed hext hheld
  refine ⟨fun l hl => ⟨(hheld.fresh l hl).1, (hheld.fresh l hl).2.trans_le hext.le⟩, ?_⟩
  rw [← hheld.view_eq]
  exact Option.map_congr fun l hl => hext.view_eq hclosed (hheld.fresh l hl).2 hlocal

/-- A function that allocates an object of its own, from which a value is read. -/
def Makes (base : Nat) (view : Heap C → Nat → V) (h : Heap C) (r : Nat × Heap C) (v : V) : Prop :=
  Step base h r.2 (Held base view r.1 v)

theorem makes_new {view : Heap C → Nat → V} (hlocal : Local view) {v : V}
    (hbase : base ≤ h.next) (hc : ∀ x ∈ refs c, base ≤ x ∧ x < h.next)
    (hv : view (h.new c).2 h.next = v) : Makes base view h (h.new c) v :=
  ⟨.new hc, stable_held hlocal _ _, hbase, Nat.lt_succ_self _, hv⟩

theorem Step.new {Q : Heap C → Prop} (hstep : Step base h h' Q) (hclosed : h.Closed)
    (hbase : base ≤ h.next) {view : Heap C → Nat → V} (hlocal : Local view) {v : V}
    (hc : ∀ x ∈ refs c, base ≤ x ∧ x < h'.next)
    (hv : ∀ h'' : Heap C, h''.cell h'.next = c → Q h'' → view h'' h'.next = v) :
    Makes base view h (h'.new c) v := by
  have hext : Extends base h' (h'.new c).2 := .new hc
  refine ⟨hstep.ext.trans hext, stable_held hlocal _ _, hbase.trans hstep.ext.le,
    Nat.lt_succ_self _, hv _ (cell_new_self _ _) ?_⟩
  exact hstep.stable (hstep.ext.closed hclosed) hext hstep.holds

/-- From the clone of an object the value is read that `f` has of the object's. -/
def Clones (base : Nat) (clone : Heap C → Nat → Nat × Heap C) (view : Heap C → Nat → V)
    (f : V → V) : Prop :=
  ∀ h : Heap C, base ≤ h.next → h.Closed → ∀ l < h.next,
    Makes base view h (clone h l) (f (view h l))

/-- Allocate a cell with what is read from another one. -/
def copy (mk : V → C) (read : C → V) (h : Heap C) (l : Nat) : Nat × Heap C :=
  h.new (mk (read (h.cell l)))

theorem local_look (read : C → V) : Local (look read) :=
  fun hagree => congrArg read (hagree _ .refl)

theorem clones_copy (mk : V → C) (read : C → V) (hrefs : ∀ v, refs (mk v) = [])
    (hread : ∀ v, read (mk v) = v) : Clones base (copy mk read) (look read) id := by
  intro h hbase _ l _
  refine makes_new (local_look read) hbase (fun x hx => ?_) ((look_new _ _ _).trans (hread _))
  rw [hrefs] at hx
  exact absurd hx List.not_mem_nil

/-- Clone one object after the other. -/
def cloneAll (clone : Heap C → Nat → Nat × Heap C) : Heap C → List Nat → List Nat × Heap C
  | h, [] => ([], h)
  | h, l :: ls =>
    ((clone h l).1 :: (cloneAll clone (clone h l).2 ls).1, (cloneAll clone (clone h l).2 ls).2)

/-- Clone an object, if there is one. -/
def cloneOption (clone : Heap C → Nat → Nat × Heap C) (h : Heap C) : Option Nat →
    Option Nat × Heap C
  | none => (none, h)
  | some l => (some (clone h l).1, (clone h l).2)

section

variable {clone : Heap C → Nat → Nat × Heap C} {view : Heap C → Nat → V} {f : V → V}

theorem Clones.of_extends (hclone : Clones base clone view f) (hlocal : Local view)
    (hbase : base ≤ h.next) (hclosed : h.Closed) (hext : Extends base h h') (hl : l < h.next) :
    Makes base view h' (clone h' l) (f (view h l)) := by
  rw [← hext.view_eq hclosed hl hlocal]
  exact hclone h' (hbase.trans hext.le) (hext.closed hclosed) l (hl.trans_le hext.le)

theorem cloneAll_spec (hclone : Clones base clone view f) (hlocal : Local view) {ls : List Nat}
    (hbase : base ≤ h.next) (hclosed : h.Closed) (hls : ∀ l ∈ ls, l < h.next)
    (hext : Extends base h h') :
    Extends base h' (cloneAll clone h' ls).2 ∧
      (∀ l ∈ (cloneAll clone h' ls).1, base ≤ l ∧ l < (cloneAll clone h' ls).2.next) ∧
      (cloneAll clone h' ls).1.map (view (cloneAll clone h' ls).2) =
        ls.map fun l => f (view h l) := by
  induction ls generalizing h' with
  | nil => exact ⟨.refl h', fun l hl => absurd hl List.not_mem_nil, rfl⟩
  | cons l ls ih =>
    have hfirst := hclone.of_extends hlocal hbase hclosed hext (hls l List.mem_cons_self)
    have hheld := hfirst.holds
    obtain ⟨hrest, hfresh, hviews⟩ := ih (fun l hl => hls l (List.mem_cons_of_mem _ hl))
      (hext.trans hfirst.ext)
    refine ⟨hfirst.ext.trans hrest, fun x hx => ?_, ?_⟩
    · rcases List.mem_cons.1 hx with rfl | hx
      · exact ⟨hheld.le, hheld.lt.trans_le hrest.le⟩
      · exact hfresh x hx
    · rw [cloneAll, List.map_cons, List.map_cons]
      dsimp only
      rw [hviews, hrest.view_eq (hfirst.ext.closed (hext.closed hclosed)) hheld.lt hlocal,
        hheld.view_eq]

theorem cloneOption_spec (hclone : Clones base clone view f) (hlocal : Local view)
    {r : Option Nat} (hbase : base ≤ h.next) (hclosed : h.Closed) (hr : ∀ l ∈ r, l < h.next)
    (hext : Extends base h h') :
    Step base h' (cloneOption clone h' r).2
      (HeldOption base view (cloneOption clone h' r).1 (r.map fun l => f (view h l))) := by
  cases r with
  | none =>
    exact ⟨.refl h', stable_heldOption hlocal _ _, fun l hl => absurd hl (Option.not_mem_none l),
      rfl⟩
  | some l =>
    have hfirst := hclone.of_extends hlocal hbase hclosed hext (hr l rfl)
    refine ⟨hfirst.ext, stable_heldOption hlocal _ _, fun x hx => ?_,
      congrArg some hfirst.holds.view_eq⟩
    cases hx
    exact ⟨hfirst.holds.le, hfirst.holds.lt⟩

end

end Heap

end McuMediaServer
