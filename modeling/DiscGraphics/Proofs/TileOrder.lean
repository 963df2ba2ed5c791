import Mathlib.Algebra.Ring.Parity
import Mathlib.Data.List.FinRange
import Mathlib.Logic.Equiv.Fin.Rotate
import DiscGraphics.Proofs.Tiles

/-!
The order of tiles. A list of them can be reordered as long as those keep their order that meet in a
cell and of which one overwrites it.
-/
namespace DiscGraphics

section Reordering

variable {ι S : Type} {f : S → ι → S}

theorem foldl_comm_of_mem {i : ι} {before : List ι}
    (h : ∀ j ∈ before, ∀ s, f (f s i) j = f (f s j) i) (s : S) :
    before.foldl f (f s i) = f (before.foldl f s) i := by
  induction before generalizing s with
  | nil => rfl
  | cons j rest ih =>
    rw [List.foldl_cons, h j List.mem_cons_self, List.foldl_cons]
    exact ih (fun k hk => h k (List.mem_cons_of_mem j hk)) (f s j)

/-- Two orders of the same steps come to the same, if steps commute of which neither must come
before the other, and both orders respect what must come before what. -/
theorem foldl_eq_of_respects {R : ι → ι → Prop}
    (hcomm : ∀ i j, ¬ R i j → ¬ R j i → ∀ s, f (f s i) j = f (f s j) i) {xs ys : List ι}
    (hperm : xs.Perm ys) (hnodup : xs.Nodup) (hx : xs.Pairwise fun i j => ¬ R j i)
    (hy : ys.Pairwise fun i j => ¬ R j i) (s : S) : xs.foldl f s = ys.foldl f s := by
  induction xs generalizing ys s with
  | nil => rw [List.nil_perm.mp hperm]
  | cons i rest ih =>
    obtain ⟨before, after, rfl⟩ := List.append_of_mem (hperm.mem_iff.mp List.mem_cons_self)
    obtain ⟨hfirst, hrest⟩ := List.pairwise_cons.mp hx
    obtain ⟨hbefore, hafter, hacross⟩ := List.pairwise_append.mp hy
    have hpermRest : rest.Perm (before ++ after) := (hperm.trans List.perm_middle).cons_inv
    -- What was put before the first step must not come before it, nor the other way round.
    have hfree : ∀ j ∈ before, ∀ s, f (f s i) j = f (f s j) i := by
      intro j hj
      apply hcomm i j
      · exact hacross j hj i List.mem_cons_self
      · exact hfirst j (hpermRest.mem_iff.mpr (List.mem_append_left after hj))
    have hkept : (before ++ after).Pairwise fun i j => ¬ R j i := by
      refine List.pairwise_append.mpr ⟨hbefore, (List.pairwise_cons.mp hafter).2, ?_⟩
      intro j hj k hk
      exact hacross j hj k (List.mem_cons_of_mem i hk)
    rw [List.foldl_cons, ih hpermRest (List.nodup_cons.mp hnodup).2 hrest hkept,
      List.foldl_append, foldl_comm_of_mem hfree, List.foldl_append, List.foldl_cons]

end Reordering

structure TilePacket where
  mode : TileMode
  data : Payload
  deriving DecidableEq

namespace TilePacket

def SameCell (t u : TilePacket) : Prop :=
  cellRow t.data = cellRow u.data ∧ cellColumn t.data = cellColumn u.data

/-- Two tiles meet in a cell, and one of them overwrites it. -/
def Conflicts (t u : TilePacket) : Prop :=
  t.SameCell u ∧ (t.mode = .normal ∨ u.mode = .normal)

instance (t u : TilePacket) : Decidable (t.Conflicts u) :=
  inferInstanceAs (Decidable ((_ ∧ _) ∧ (_ ∨ _)))

theorem Conflicts.symm {t u : TilePacket} (h : t.Conflicts u) : u.Conflicts t :=
  ⟨⟨h.1.1.symm, h.1.2.symm⟩, h.2.symm⟩

/-- The packets in another order; `σ` says where each of them goes. -/
def reordered (tiles : List TilePacket) (σ : Equiv.Perm (Fin tiles.length)) : List TilePacket :=
  List.ofFn fun k => tiles.get (σ.symm k)

/-- Of two packets that conflict, the first stays before the second. -/
def KeepsConflicts (tiles : List TilePacket) (σ : Equiv.Perm (Fin tiles.length)) : Prop :=
  ∀ i j, i < j → (tiles.get i).Conflicts (tiles.get j) → σ i < σ j

instance (tiles : List TilePacket) (σ : Equiv.Perm (Fin tiles.length)) :
    Decidable (KeepsConflicts tiles σ) :=
  inferInstanceAs (Decidable (∀ _ _, _ → _ → _))

theorem length_reordered (tiles : List TilePacket) (σ : Equiv.Perm (Fin tiles.length)) :
    (reordered tiles σ).length = tiles.length :=
  List.length_ofFn

end TilePacket

namespace Canvas

/-- Paint some tiles in order; the answers say which were painted and which were dropped. -/
def tileAll (c : Canvas) : List TilePacket → Except Fault (List Bool × Canvas)
  | [] => .ok ([], c)
  | t :: rest => do
    let (painted, c) ← c.tileBlock t.data t.mode
    let (answers, c) ← c.tileAll rest
    .ok (painted :: answers, c)

def afterTile (c : Canvas) (t : TilePacket) : Canvas := c.tiled t.data t.mode

theorem offset_afterTile (c : Canvas) (t : TilePacket) : (c.afterTile t).offset = c.offset :=
  (c.sameFrame_tiled t.data t.mode).offset

theorem fits_afterTile (c : Canvas) (t : TilePacket) (data : Payload) :
    (c.afterTile t).Fits data ↔ c.Fits data := by
  rw [Fits, Fits, offset_afterTile]

/-- No tile fails, and whether one is painted does not depend on the others. -/
theorem tileAll_eq_ok (c : Canvas) (tiles : List TilePacket) :
    c.tileAll tiles =
      .ok (tiles.map fun t => decide (c.Fits t.data), tiles.foldl afterTile c) := by
  induction tiles generalizing c with
  | nil => rfl
  | cons t rest ih =>
    have hfits : (TileBlock.ofPayload t.data).fits c.offset.horizontal c.offset.vertical =
        decide (c.Fits t.data) := by
      rw [Bool.eq_iff_iff, decide_eq_true_iff, c.fits_iff]
    have hlater : (rest.map fun u => decide ((c.afterTile t).Fits u.data)) =
        rest.map fun u => decide (c.Fits u.data) := by
      simp only [fits_afterTile]
    rw [tileAll, tileBlock_eq_ok, hfits]
    change (c.afterTile t).tileAll rest >>= _ = _
    rw [ih, hlater]
    rfl

theorem afterTile_of_fits {c : Canvas} {t : TilePacket} (h : c.Fits t.data) :
    c.afterTile t = c.paint (c.tileLeft t.data) (c.tileTop t.data) 6 12 fun i j =>
      t.mode.combine (tileColor t.data i j) :=
  tiled_of_fits h t.mode

theorem afterTile_of_not_fits {c : Canvas} {t : TilePacket} (h : ¬ c.Fits t.data) :
    c.afterTile t = c :=
  tiled_of_not_fits h t.mode

theorem afterTile_afterTile {c : Canvas} {t u : TilePacket} (ht : c.Fits t.data)
    (hu : c.Fits u.data) :
    (c.afterTile t).afterTile u =
      (c.paint (c.tileLeft t.data) (c.tileTop t.data) 6 12 fun i j =>
        t.mode.combine (tileColor t.data i j)).paint (c.tileLeft u.data) (c.tileTop u.data) 6 12
          fun i j => u.mode.combine (tileColor u.data i j) := by
  rw [afterTile_of_fits ((c.fits_afterTile t u.data).mpr hu), tileLeft, tileTop, offset_afterTile,
    afterTile_of_fits ht]
  rfl

theorem xor_combine_comm (a b old : UInt8) :
    TileMode.xor.combine a (TileMode.xor.combine b old) =
      TileMode.xor.combine b (TileMode.xor.combine a old) := by
  simp only [TileMode.combine]
  rw [← UInt8.xor_assoc, UInt8.xor_comm a b, UInt8.xor_assoc]

/-- Tiles that do not conflict can be painted in either order. -/
theorem afterTile_comm (c : Canvas) {t u : TilePacket} (h : ¬ t.Conflicts u) :
    (c.afterTile t).afterTile u = (c.afterTile u).afterTile t := by
  by_cases ht : c.Fits t.data
  · by_cases hu : c.Fits u.data
    · rw [afterTile_afterTile ht hu, afterTile_afterTile hu ht]
      by_cases hcell : t.SameCell u
      · obtain ⟨ht', hu'⟩ : t.mode = .xor ∧ u.mode = .xor := by
          have hmodes := fun hm => h ⟨hcell, hm⟩
          cases htm : t.mode <;> cases hum : u.mode <;> simp_all
        have hleft : c.tileLeft u.data = c.tileLeft t.data := by
          rw [tileLeft, tileLeft, hcell.2]
        have htop : c.tileTop u.data = c.tileTop t.data := by
          rw [tileTop, tileTop, hcell.1]
        rw [hleft, htop, ht', hu', paint_paint c ht.left, paint_paint c ht.left]
        apply paint_congr
        intro i _ j _
        funext v
        exact xor_combine_comm _ _ v
      · apply paint_comm c ht.left hu.left
        rw [TilePacket.SameCell] at hcell
        simp only [tileLeft, tileTop]
        omega
    · have hu' := mt (c.fits_afterTile t u.data).mp hu
      rw [afterTile_of_not_fits hu', afterTile_of_not_fits hu]
  · have ht' := mt (c.fits_afterTile u t.data).mp ht
    rw [afterTile_of_not_fits ht, afterTile_of_not_fits ht']

/-- Painting tiles in another order is painting them in theirs, if conflicting ones keep it. -/
theorem foldl_afterTile_reordered (c : Canvas) {tiles : List TilePacket}
    {σ : Equiv.Perm (Fin tiles.length)} (h : TilePacket.KeepsConflicts tiles σ) :
    (TilePacket.reordered tiles σ).foldl afterTile c = tiles.foldl afterTile c := by
  let step (c : Canvas) (i : Fin tiles.length) : Canvas := c.afterTile (tiles.get i)
  let precedes (i j : Fin tiles.length) : Prop :=
    i < j ∧ (tiles.get i).Conflicts (tiles.get j)
  have hcomm (i j : Fin tiles.length) (hij : ¬ precedes i j) (hji : ¬ precedes j i) (c : Canvas) :
      step (step c i) j = step (step c j) i := by
    rcases lt_trichotomy i j with hlt | rfl | hgt
    · exact c.afterTile_comm fun hconflict => hij ⟨hlt, hconflict⟩
    · rfl
    · exact c.afterTile_comm fun hconflict => hji ⟨hgt, hconflict.symm⟩
  have hplaces : (List.finRange tiles.length).Pairwise fun i j => ¬ precedes j i := by
    apply (List.pairwise_lt_finRange _).imp
    intro i j hlt hji
    exact absurd hji.1 hlt.le.not_gt
  have hmoved : ((List.finRange tiles.length).map σ.symm).Pairwise fun i j => ¬ precedes j i := by
    rw [List.pairwise_map]
    apply (List.pairwise_lt_finRange _).imp
    rintro k l hlt ⟨hback, hconflict⟩
    have hkept := h _ _ hback hconflict
    rw [σ.apply_symm_apply, σ.apply_symm_apply] at hkept
    exact absurd hkept hlt.le.not_gt
  calc (TilePacket.reordered tiles σ).foldl afterTile c
      = ((List.finRange tiles.length).map σ.symm).foldl step c := by
        rw [TilePacket.reordered, List.ofFn_eq_map, List.foldl_map, List.foldl_map]
    _ = (List.finRange tiles.length).foldl step c :=
        (foldl_eq_of_respects hcomm (Equiv.Perm.map_finRange_perm σ.symm).symm
          (List.nodup_finRange _) hplaces hmoved c).symm
    _ = tiles.foldl afterTile c := by
        conv_rhs => rw [← tiles.map_get_finRange, List.foldl_map]

/-- Another order of some tiles leaves the same canvas, and each of them gets the same answer. -/
def OutcomesAgree (c : Canvas) (tiles : List TilePacket)
    (σ : Equiv.Perm (Fin tiles.length)) : Prop :=
  ∃ answers answers' c', c.tileAll tiles = .ok (answers, c') ∧
    c.tileAll (TilePacket.reordered tiles σ) = .ok (answers', c') ∧
    answers.length = tiles.length ∧ answers'.length = tiles.length ∧
    ∀ k, answers'[(σ k).val]? = answers[k.val]?

theorem outcomesAgree_of_keepsConflicts (c : Canvas) {tiles : List TilePacket}
    {σ : Equiv.Perm (Fin tiles.length)} (h : TilePacket.KeepsConflicts tiles σ) :
    c.OutcomesAgree tiles σ := by
  have hmoved := c.tileAll_eq_ok (TilePacket.reordered tiles σ)
  rw [c.foldl_afterTile_reordered h] at hmoved
  refine ⟨_, _, _, c.tileAll_eq_ok tiles, hmoved, List.length_map _, ?_, ?_⟩
  · rw [List.length_map, TilePacket.length_reordered]
  · intro k
    rw [List.getElem?_map, List.getElem?_map, TilePacket.reordered, List.getElem?_ofFn,
      dif_pos (σ k).isLt, Fin.eta, σ.symm_apply_apply, List.getElem?_eq_getElem k.isLt]
    rfl

theorem afterTile_involutive {t : TilePacket} (h : t.mode = .xor) :
    Function.Involutive fun c : Canvas => c.afterTile t := by
  intro c
  dsimp only
  by_cases ht : c.Fits t.data
  · rw [afterTile_afterTile ht ht, h, paint_paint c ht.left]
    apply paint_eq_self c ht.left
    intro i _ j _ v
    simp only [TileMode.combine]
    rw [← UInt8.xor_assoc, UInt8.xor_self, UInt8.zero_xor]
  · rw [afterTile_of_not_fits ht, afterTile_of_not_fits ht]

theorem foldl_afterTile_replicate (c : Canvas) {t : TilePacket} (h : t.mode = .xor) {n : Nat}
    (hn : Even n) : (List.replicate n t).foldl afterTile c = c := by
  calc (List.replicate n t).foldl afterTile c
      = (List.replicate n t).foldl (fun c _ => c.afterTile t) c := by
        apply List.foldl_ext
        intro c u hu
        rw [List.eq_of_mem_replicate hu]
    _ = c := by
        rw [List.foldl_const, List.length_replicate, (afterTile_involutive h).iterate_even hn]
        rfl

theorem foldl_afterTile_perm (c : Canvas) {tiles others : List TilePacket}
    (h : ∀ t ∈ tiles, t.mode = .xor) (hperm : tiles.Perm others) :
    tiles.foldl afterTile c = others.foldl afterTile c := by
  apply hperm.foldl_eq'
  intro t ht u hu c
  apply c.afterTile_comm
  rintro ⟨-, hnormal⟩
  rw [h t ht, h u hu] at hnormal
  exact hnormal.elim nofun nofun

/-- Among tiles combined by exclusive or, one painted an even number of times cancels. -/
theorem foldl_afterTile_filter (c : Canvas) {tiles : List TilePacket}
    (h : ∀ t ∈ tiles, t.mode = .xor) {t : TilePacket} (ht : Even (tiles.count t)) :
    tiles.foldl afterTile c = (tiles.filter (· ≠ t)).foldl afterTile c := by
  by_cases hmem : t ∈ tiles
  · have hfirst : (tiles.filter (· = t)).foldl afterTile c = c := by
      rw [List.filter_eq]
      exact c.foldl_afterTile_replicate (h t hmem) ht
    have hsorted := (List.filter_append_perm (fun u => decide (u = t)) tiles).symm
    rw [c.foldl_afterTile_perm h hsorted, List.foldl_append, hfirst]
    simp only [decide_not]
  · rw [List.filter_eq_self.mpr]
    intro u hu
    exact decide_eq_true fun he => hmem (he ▸ hu)

/-- Tiles can be painted in any order that keeps conflicting ones in theirs: the canvas and every
answer are the same. Tiles combined by exclusive or can be painted in any order at all, and one that
is painted an even number of times among them might as well be left out. -/
theorem tiles_commute (c : Canvas) (tiles : List TilePacket) :
    (∀ σ, TilePacket.KeepsConflicts tiles σ → c.OutcomesAgree tiles σ) ∧
      ((∀ t ∈ tiles, t.mode = .xor) → (∀ σ, c.OutcomesAgree tiles σ) ∧
        ∀ t, Even (tiles.count t) → ∃ answers answers' c', c.tileAll tiles = .ok (answers, c') ∧
          c.tileAll (tiles.filter (· ≠ t)) = .ok (answers', c')) := by
  refine ⟨fun σ h => c.outcomesAgree_of_keepsConflicts h, fun h => ⟨fun σ => ?_, ?_⟩⟩
  · apply c.outcomesAgree_of_keepsConflicts
    rintro i j - ⟨-, hnormal⟩
    rw [h _ (tiles.get_mem i), h _ (tiles.get_mem j)] at hnormal
    exact hnormal.elim nofun nofun
  · intro t ht
    have hleft := c.tileAll_eq_ok (tiles.filter (· ≠ t))
    rw [← c.foldl_afterTile_filter h ht] at hleft
    exact ⟨_, _, _, c.tileAll_eq_ok tiles, hleft⟩

/-- A tile in the corner of the picture that overwrites it. -/
def cornerTile : TilePacket := ⟨.normal, Vector.replicate 16 0⟩

/-- A tile combined with what is in the corner. -/
def cornerMark : TilePacket := ⟨.xor, Vector.ofFn fun i => if i.val = 1 then 15 else 0⟩

def besideTile : TilePacket := ⟨.normal, Vector.ofFn fun i => if i.val = 3 then 1 else 0⟩

def besideMark : TilePacket := { besideTile with mode := .xor }

/-- The last of three tiles comes first, and the two in the corner stay in order. -/
def cycled : Equiv.Perm (Fin [cornerTile, cornerMark, besideTile].length) := finRotate 3

/-- The corner is painted and then marked, before or after the tile beside it; and a mark made twice
is none. -/
theorem tiles_commute_in_corner :
    TilePacket.KeepsConflicts [cornerTile, cornerMark, besideTile] cycled ∧
      empty.OutcomesAgree [cornerTile, cornerMark, besideTile] cycled ∧
      ∃ answers answers' c', empty.tileAll [cornerMark, besideMark, cornerMark] =
          .ok (answers, c') ∧
        empty.tileAll [besideMark] = .ok (answers', c') := by
  have hkeeps : TilePacket.KeepsConflicts [cornerTile, cornerMark, besideTile] cycled := by
    decide
  have hmarks : ∀ t ∈ [cornerMark, besideMark, cornerMark], t.mode = .xor := by decide
  have htwice : Even ([cornerMark, besideMark, cornerMark].count cornerMark) := by decide
  have hleft : [cornerMark, besideMark, cornerMark].filter (· ≠ cornerMark) = [besideMark] := by
    decide
  have hcancels := ((tiles_commute empty _).2 hmarks).2 cornerMark htwice
  rw [hleft] at hcancels
  exact ⟨hkeeps, (tiles_commute empty _).1 _ hkeeps, hcancels⟩

end Canvas
end DiscGraphics
