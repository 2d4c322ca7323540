/-
# The rectangle of the root

`get_root_node` accumulates its `rect` in a loop over the outputs.  The members `x` and `y`
start with -1, which stands for "not set yet"; `width` and `height` start with what the memory
of the structure holds.
-/
import WayfireIpc.Compositor.Describe
import WayfireIpc.Protocol

namespace WayfireIpc

/-- `wf::geometry_t`. -/
structure Geometry where
  x : Int32
  y : Int32
  width : Int32
  height : Int32
deriving DecidableEq, Repr

/-- `ipc_json::describe_geometry`. -/
def describeGeometry (g : Geometry) : Json :=
  .obj [("x", .int g.x.toInt), ("y", .int g.y.toInt), ("width", .int g.width.toInt),
    ("height", .int g.height.toInt)]

namespace Geometry

/-- The sum of two `int`. -/
def add (a b : Int32) : Except Failure Int32 :=
  if -2 ^ 31 ≤ a.toInt + b.toInt ∧ a.toInt + b.toInt < 2 ^ 31 then .ok (.ofInt (a.toInt + b.toInt))
  else .error .overflow

/-- `if (rect.x == -1) rect.x = v`. -/
def settle (x v : Int32) : Int32 := if x = -1 then v else x

/-- `if (v > rect.height) rect.height = v`. -/
def enlarge (height v : Int32) : Int32 := if height < v then v else height

/-- The round of the loop of `get_root_node` for an output with the layout geometry `g`. -/
def addOutput (orientation : Option Str) (rect g : Geometry) : Except Failure Geometry := do
  let rect := { rect with x := settle rect.x g.x, y := settle rect.y g.y }
  if orientation = some "vertical".toList then
    let height ← add rect.height g.height
    return { rect with height := height, width := enlarge rect.width g.width }
  else if orientation = some "horizontal".toList then
    let width ← add rect.width g.width
    return { rect with width := width, height := enlarge rect.height g.height }
  else return rect

/-- The member `orientation` of the root. -/
def rootOrientation : Option Str := some "horizontal".toList

/-- The variable `rect` of `get_root_node` at its end, for the layout geometries of the outputs
and the contents of the memory at its beginning. -/
def rootRect (memory : Geometry) (gs : List Geometry) : Except Failure Geometry := do
  let rect ← gs.foldlM (addOutput rootOrientation) { memory with x := -1, y := -1 }
  return { rect with x := settle rect.x 0, y := settle rect.y 0 }

/-- The rectangle that is as wide as the outputs together and as high as the highest, and lies
where the first output lies. -/
structure Spans (gs : List Geometry) (rect : Geometry) : Prop where
  x_eq : gs.head?.map Geometry.x = some rect.x
  y_eq : gs.head?.map Geometry.y = some rect.y
  width_eq : rect.width.toInt = (gs.map fun g => g.width.toInt).sum
  height_mem : rect.height ∈ gs.map Geometry.height
  height_ge : ∀ g ∈ gs, g.height ≤ rect.height

/-- The sums of the first widths are values of an `int`. -/
def WidthsFit (gs : List Geometry) : Prop :=
  ∀ n, -2 ^ 31 ≤ ((gs.take n).map fun g => g.width.toInt).sum ∧
    ((gs.take n).map fun g => g.width.toInt).sum < 2 ^ 31

end Geometry

/-- The member `rect` of the object that `get_root_node` returns, if it returns one. -/
def Compositor.getRootRect (c : Compositor) (layoutGeometry : OutputRef → Geometry)
    (memory : Geometry) : Except Failure (Option Json) :=
  if c.activeOutput = none then .ok none
  else do
    let rect ← Geometry.rootRect memory (c.outputs.map layoutGeometry)
    return some (describeGeometry rect)

namespace Geometry

/-! ## The accumulators -/

lemma describeGeometry_inj {g g' : Geometry} (h : describeGeometry g = describeGeometry g') : g = g' := by
  cases g
  cases g'
  simpa [describeGeometry, Int32.toInt_inj] using h

lemma add_ok_iff {a b s : Int32} : add a b = .ok s ↔
    (-2 ^ 31 ≤ a.toInt + b.toInt ∧ a.toInt + b.toInt < 2 ^ 31) ∧ s.toInt = a.toInt + b.toInt := by
  rw [add]
  split_ifs with hfits
  · have hsum := Int32.toInt_ofInt_of_le hfits.1 hfits.2
    rw [Except.ok.injEq, ← Int32.toInt_inj, hsum]
    exact ⟨fun h => ⟨hfits, h.symm⟩, fun h => h.2.symm⟩
  · exact ⟨fun h => (by cases h), fun h => absurd h.1 hfits⟩

/-- A sum that is accumulated in an `int`. -/
lemma foldlM_add_iff {vs : List Int32} : ∀ {a s : Int32}, vs.foldlM add a = .ok s ↔
    (∀ n, -2 ^ 31 ≤ a.toInt + ((vs.take n).map Int32.toInt).sum ∧
      a.toInt + ((vs.take n).map Int32.toInt).sum < 2 ^ 31) ∧
    s.toInt = a.toInt + (vs.map Int32.toInt).sum := by
  induction vs with
  | nil =>
    intro a s
    have hle := a.le_toInt
    have hlt := a.toInt_lt
    simp only [List.foldlM_nil, List.take_nil, List.map_nil, List.sum_nil, Int.add_zero]
    constructor
    · intro h
      cases h
      exact ⟨fun _ => ⟨hle, hlt⟩, rfl⟩
    · rintro ⟨-, h⟩
      rw [Int32.toInt_inj.mp h]
      rfl
  | cons v vs ih =>
    intro a s
    rw [List.foldlM_cons, Machine.bind_ok_iff]
    constructor
    · rintro ⟨b, hb, hs⟩
      obtain ⟨hfits, hsum⟩ := add_ok_iff.mp hb
      obtain ⟨hall, hs⟩ := ih.mp hs
      refine ⟨fun n => ?_, by rw [hs, hsum, List.map_cons, List.sum_cons, add_assoc]⟩
      cases n with
      | zero => simpa using ⟨a.le_toInt, a.toInt_lt⟩
      | succ n =>
        rw [List.take_succ_cons, List.map_cons, List.sum_cons, ← add_assoc, ← hsum]
        exact hall n
    · rintro ⟨hall, hs⟩
      -- the first sum is one of those that fit
      have hfits := hall 1
      rw [List.take_succ_cons, List.take_zero, List.map_singleton, List.sum_singleton] at hfits
      have hsum := Int32.toInt_ofInt_of_le hfits.1 hfits.2
      refine ⟨_, add_ok_iff.mpr ⟨hfits, hsum⟩, ih.mpr ⟨fun n => ?_, ?_⟩⟩
      · have := hall (n + 1)
        rwa [List.take_succ_cons, List.map_cons, List.sum_cons, ← add_assoc, ← hsum] at this
      · rw [hs, hsum, List.map_cons, List.sum_cons, add_assoc]

lemma settle_marker (v : Int32) : settle (-1) v = v := if_pos rfl

lemma settle_of_ne {x : Int32} (h : x ≠ -1) (v : Int32) : settle x v = x := if_neg h

lemma foldl_settle_of_ne {x : Int32} (h : x ≠ -1) (vs : List Int32) : vs.foldl settle x = x := by
  induction vs with
  | nil => rfl
  | cons v vs ih => rw [List.foldl_cons, settle_of_ne h, ih]

/-- The marker hides a coordinate of -1. -/
lemma settle_foldl_eq_iff (v : Int32) (vs : List Int32) :
    settle ((v :: vs).foldl settle (-1)) 0 = v ↔ v ≠ -1 := by
  rw [List.foldl_cons, settle_marker]
  constructor
  · rintro h rfl
    by_cases hend : vs.foldl settle (-1) = -1
    · rw [hend, settle_marker] at h
      exact absurd h (by decide)
    · rw [settle_of_ne hend] at h
      exact hend h
  · intro hv
    rw [foldl_settle_of_ne hv, settle_of_ne hv]

lemma le_enlarge (h v : Int32) : h ≤ enlarge h v ∧ v ≤ enlarge h v := by
  rw [enlarge]
  split_ifs with hlt
  · exact ⟨Int32.le_of_lt hlt, Int32.le_refl v⟩
  · exact ⟨Int32.le_refl h, Int32.not_lt.mp hlt⟩

/-- The height at the end is the one at the beginning or that of an output, and not below any. -/
lemma foldl_enlarge_spec (vs : List Int32) : ∀ h : Int32,
    h ≤ vs.foldl enlarge h ∧ (∀ v ∈ vs, v ≤ vs.foldl enlarge h) ∧
      (vs.foldl enlarge h = h ∨ vs.foldl enlarge h ∈ vs) := by
  induction vs with
  | nil => exact fun h => ⟨Int32.le_refl h, by simp, Or.inl rfl⟩
  | cons v vs ih =>
    intro h
    obtain ⟨hle, hall, hend⟩ := ih (enlarge h v)
    obtain ⟨hh, hv⟩ := le_enlarge h v
    rw [List.foldl_cons]
    refine ⟨Int32.le_trans hh hle, fun w hw => ?_, ?_⟩
    · rcases List.mem_cons.mp hw with rfl | hw
      · exact Int32.le_trans hv hle
      · exact hall w hw
    · rcases hend with hend | hend
      · rw [hend, enlarge]
        split_ifs
        · exact Or.inr List.mem_cons_self
        · exact Or.inl rfl
      · exact Or.inr (List.mem_cons_of_mem v hend)

/-- The loop accumulates the four members independently. -/
lemma foldlM_addOutput (gs : List Geometry) : ∀ rect : Geometry,
    gs.foldlM (addOutput rootOrientation) rect
      = (gs.map Geometry.width).foldlM add rect.width >>= fun width =>
        .ok ⟨(gs.map Geometry.x).foldl settle rect.x, (gs.map Geometry.y).foldl settle rect.y, width,
          (gs.map Geometry.height).foldl enlarge rect.height⟩ := by
  induction gs with
  | nil => exact fun rect => rfl
  | cons g gs ih =>
    intro rect
    have hround : addOutput rootOrientation rect g = add rect.width g.width >>= fun width =>
        .ok ⟨settle rect.x g.x, settle rect.y g.y, width, enlarge rect.height g.height⟩ := rfl
    rw [List.foldlM_cons, hround, List.map_cons, List.foldlM_cons]
    cases add rect.width g.width with
    | error f => rfl
    | ok width => exact ih _

/-- What the rectangle of at least one output is. -/
lemma rootRect_ok_iff {memory g rect : Geometry} {gs : List Geometry} :
    rootRect memory (g :: gs) = .ok rect ↔
      ((g :: gs).map Geometry.width).foldlM add memory.width = .ok rect.width ∧
      rect.x = settle (((g :: gs).map Geometry.x).foldl settle (-1)) 0 ∧
      rect.y = settle (((g :: gs).map Geometry.y).foldl settle (-1)) 0 ∧
      rect.height = ((g :: gs).map Geometry.height).foldl enlarge memory.height := by
  rw [rootRect, foldlM_addOutput]
  cases ((g :: gs).map Geometry.width).foldlM add memory.width with
  | error f => simp
  | ok width =>
    cases rect
    simp only [Machine.ok_bind, pure, Except.pure, Except.ok.injEq, Geometry.mk.injEq]
    tauto

/-- The rectangle spans the outputs exactly if the memory holds a width of 0 and no height above
that of every output, no coordinate of the first output is the marker, and no sum overflows. -/
lemma rootRect_spans_iff (memory : Geometry) {gs : List Geometry} (hne : gs ≠ []) :
    (∃ rect, rootRect memory gs = .ok rect ∧ Spans gs rect) ↔
      memory.width = 0 ∧ (∃ g ∈ gs, memory.height ≤ g.height) ∧
      (∀ g ∈ gs.head?, g.x ≠ -1 ∧ g.y ≠ -1) ∧ WidthsFit gs := by
  obtain ⟨g, gs, rfl⟩ := List.exists_cons_of_ne_nil hne
  obtain ⟨hstart, hall, hend⟩ := foldl_enlarge_spec ((g :: gs).map Geometry.height) memory.height
  have hwidths : ∀ gs : List Geometry,
      (gs.map Geometry.width).map Int32.toInt = gs.map fun g => g.width.toInt := fun gs =>
    List.map_map
  constructor
  · rintro ⟨rect, hrect, hspans⟩
    obtain ⟨hwidth, hx, hy, hheight⟩ := rootRect_ok_iff.mp hrect
    obtain ⟨hfits, hsum⟩ := foldlM_add_iff.mp hwidth
    have hzero : memory.width = 0 := by
      rw [hspans.width_eq, hwidths] at hsum
      exact Int32.toInt_inj.mp (by simpa using hsum)
    refine ⟨hzero, ?_, ?_, fun n => ?_⟩
    · obtain ⟨g', hg', heq⟩ := List.mem_map.mp hspans.height_mem
      exact ⟨g', hg', by rw [heq, hheight]; exact hstart⟩
    · rintro g' ⟨⟩
      have hx₀ := Option.some.inj hspans.x_eq
      have hy₀ := Option.some.inj hspans.y_eq
      rw [hx] at hx₀
      rw [hy] at hy₀
      exact ⟨(settle_foldl_eq_iff _ _).mp hx₀.symm, (settle_foldl_eq_iff _ _).mp hy₀.symm⟩
    · have := hfits n
      rwa [hzero, ← List.map_take, hwidths, Int32.toInt_zero, Int.zero_add] at this
  · rintro ⟨hzero, ⟨g', hg', hle⟩, hmarker, hfits⟩
    obtain ⟨hx, hy⟩ := hmarker g rfl
    have hsum := Int32.toInt_ofInt_of_le (hfits (g :: gs).length).1 (hfits (g :: gs).length).2
    rw [List.take_length] at hsum
    refine ⟨⟨g.x, g.y, _, ((g :: gs).map Geometry.height).foldl enlarge memory.height⟩,
      rootRect_ok_iff.mpr ⟨foldlM_add_iff.mpr ⟨fun n => ?_, ?_⟩,
        ((settle_foldl_eq_iff _ _).mpr hx).symm, ((settle_foldl_eq_iff _ _).mpr hy).symm, rfl⟩,
      rfl, rfl, hsum, ?_, ?_⟩
    · rw [hzero, ← List.map_take, hwidths, Int32.toInt_zero, Int.zero_add]
      exact hfits n
    · rw [hzero, hwidths, Int32.toInt_zero, Int.zero_add]
      exact hsum
    · -- a start below an output's height leaves no trace
      rcases hend with hend | hend
      · have hge := hall g'.height (List.mem_map_of_mem hg')
        rw [hend] at hge
        rw [hend, Int32.le_antisymm hle hge]
        exact List.mem_map_of_mem hg'
      · exact hend
    · exact fun g₁ hg₁ => hall g₁.height (List.mem_map_of_mem hg₁)

end Geometry

namespace Compositor

variable {c : Compositor} {layoutGeometry : OutputRef → Geometry} {memory : Geometry}

/-- The root reports a rectangle that spans the outputs exactly if an output is active and the
accumulation goes well. -/
theorem getRootRect_spans_iff (hne : c.outputs ≠ []) :
    (∃ rect, c.getRootRect layoutGeometry memory = .ok (some (describeGeometry rect)) ∧
      Geometry.Spans (c.outputs.map layoutGeometry) rect) ↔
      c.activeOutput ≠ none ∧ memory.width = 0 ∧
      (∃ o ∈ c.outputs, memory.height ≤ (layoutGeometry o).height) ∧
      (∀ o ∈ c.outputs.head?, (layoutGeometry o).x ≠ -1 ∧ (layoutGeometry o).y ≠ -1) ∧
      Geometry.WidthsFit (c.outputs.map layoutGeometry) := by
  have hmap : c.outputs.map layoutGeometry ≠ [] := by simpa using hne
  have hspans := Geometry.rootRect_spans_iff memory hmap
  simp only [List.mem_map, exists_exists_and_eq_and, List.head?_map, Option.mem_map,
    forall_exists_index, and_imp, forall_apply_eq_imp_iff₂] at hspans
  by_cases hactive : c.activeOutput = none
  · simp [getRootRect, hactive]
  · rw [← hspans, and_iff_right hactive, getRootRect, if_neg hactive]
    cases Geometry.rootRect memory (c.outputs.map layoutGeometry) with
    | error f => simp
    | ok rect =>
      simp only [Machine.ok_bind, pure, Except.pure, Except.ok.injEq, Option.some.injEq]
      constructor
      · rintro ⟨rect', hrect, h⟩
        exact ⟨rect, rfl, Geometry.describeGeometry_inj hrect ▸ h⟩
      · rintro ⟨rect', rfl, h⟩
        exact ⟨rect, rfl, h⟩

/-- A compositor with one output. -/
def oneOutput : Compositor := flat [⟨1, "DP-1".toList, 1, 1, ⟨0, 0⟩⟩] [] none

/-- An output of 1920 by 1080 pixels at the given place. -/
def fullHd (x : Int32) (_ : OutputRef) : Geometry := ⟨x, 0, 1920, 1080⟩

theorem getRootRect_spans_iff_oneOutput :
    (∃ rect, oneOutput.getRootRect (fullHd 0) ⟨0, 0, 0, 0⟩
        = .ok (some (describeGeometry rect)) ∧
      Geometry.Spans (oneOutput.outputs.map (fullHd 0)) rect) ↔
      oneOutput.activeOutput ≠ none ∧ (0 : Int32) = 0 ∧
      (∃ o ∈ oneOutput.outputs, 0 ≤ (fullHd 0 o).height) ∧
      (∀ o ∈ oneOutput.outputs.head?, (fullHd 0 o).x ≠ -1 ∧ (fullHd 0 o).y ≠ -1) ∧
      Geometry.WidthsFit (oneOutput.outputs.map (fullHd 0)) :=
  getRootRect_spans_iff (by decide)

/-- The width of what was in the memory before is added to that of the output, and an output at
-1 is reported at 0. -/
theorem getRootRect_not_spans :
    oneOutput.getRootRect (fullHd 0) ⟨0, 0, 7, 0⟩
      = .ok (some (describeGeometry ⟨0, 0, 1927, 1080⟩)) ∧
    ¬ Geometry.Spans (oneOutput.outputs.map (fullHd 0)) ⟨0, 0, 1927, 1080⟩ ∧
    oneOutput.getRootRect (fullHd (-1)) ⟨0, 0, 0, 0⟩
      = .ok (some (describeGeometry ⟨0, 0, 1920, 1080⟩)) ∧
    ¬ Geometry.Spans (oneOutput.outputs.map (fullHd (-1))) ⟨0, 0, 1920, 1080⟩ := by
  refine ⟨by rfl, fun h => ?_, by rfl, fun h => ?_⟩
  · have := h.width_eq
    revert this
    decide
  · have := h.x_eq
    revert this
    decide

end Compositor

end WayfireIpc
