import SolidScript.Proofs.Binary.Order
import SolidScript.Proofs.Script.Chains
import SolidScript.Proofs.Shape.Moved
import SolidScript.Script.Function

/-!
# Headroom of the clipping shapes

The moves of a half plane or half space are added up in one vector, from an offset that may be as
long as the side. The side is no more than one grain, and up to 999 grains are a number of single
precision, so that a sum of as many offsets is rounded to no more than as many grains.
-/

set_option autoImplicit false

attribute [local instance (10000)] instPowNat

namespace SolidScript
open Binary Number

/-- A bound of the side in units, of which every multiple below a thousand has few enough digits. -/
def grain : Nat := 8389 * 2 ^ 254

theorem fits_grain {k : Nat} (hk : k < 1000) : Format.single.Fits (k * grain) := by
  have hdigits : k * grain = k * 8389 * 2 ^ 254 := (Nat.mul_assoc ..).symm
  have hlt : k * 8389 < 2 ^ 23 := by omega
  rw [hdigits]
  refine ⟨Format.single.mod_step_of_digits (hlt.le.trans (by decide)), ?_⟩
  calc k * 8389 * 2 ^ 254 < 2 ^ 23 * 2 ^ 254 := Nat.mul_lt_mul_of_pos_right hlt (by decide)
    _ = 2 ^ Format.single.limit := by decide +kernel

theorem within_grain {x : Single} (h : (-halfSide).le x = true ∧ x.le halfSide = true) :
    x.Within grain := by
  have hside : halfSide.Within grain := by decide +kernel
  have hsign : halfSide.negative = false := by decide +kernel
  generalize halfSide = side at h hside hsign
  cases side with
  | finite s n hn =>
    obtain rfl : s = false := hsign
    exact (within_of_le h.1 h.2).mono hside
  | _ => exact hside.elim

/-! Sums of offsets -/

namespace Coordinates

variable {k : Nat} {xs ys : Coordinates} {offsets : List Coordinates}

def sum (xs : Coordinates) (offsets : List Coordinates) : Coordinates :=
  offsets.foldl (List.zipWith (· + ·)) xs

theorem length_sum (h : ∀ ys ∈ offsets, ys.length = xs.length) :
    (xs.sum offsets).length = xs.length := by
  induction offsets generalizing xs with
  | nil => rfl
  | cons ys offsets ih =>
    rw [List.forall_mem_cons] at h
    have hzip : (xs.zipWith (· + ·) ys).length = xs.length := by simp [h.1]
    exact (ih fun zs hzs => (h.2 zs hzs).trans hzip.symm).trans hzip

theorem add_within (hk : k + 1 < 1000) (hx : ∀ x ∈ xs, x.Within (k * grain))
    (hy : ∀ y ∈ ys, y.Within grain) :
    ∀ z ∈ xs.zipWith (· + ·) ys, z.Within ((k + 1) * grain) := by
  intro z hz
  obtain ⟨i, hi, rfl⟩ := List.mem_iff_getElem.1 hz
  have hfits := fits_grain hk
  rw [Nat.succ_mul] at hfits ⊢
  rw [List.getElem_zipWith]
  exact (hx _ (List.getElem_mem _)).add (hy _ (List.getElem_mem _)) (by decide) hfits

theorem sum_within (hk : k + offsets.length < 1000) (hx : ∀ x ∈ xs, x.Within (k * grain))
    (hoffsets : ∀ ys ∈ offsets, ∀ y ∈ ys, y.Within grain) :
    ∀ z ∈ xs.sum offsets, z.Within ((k + offsets.length) * grain) := by
  induction offsets generalizing k xs with
  | nil => exact hx
  | cons ys offsets ih =>
    rw [List.forall_mem_cons] at hoffsets
    rw [List.length_cons] at hk ⊢
    rw [Nat.add_comm offsets.length, ← Nat.add_assoc]
    exact ih (by omega) (add_within (by omega) hx hoffsets.1) hoffsets.2

end Coordinates

theorem Layer.foldl_push_translate (xs : Coordinates) (offsets : List Coordinates) :
    (offsets.map Layer.translate).foldl Layer.push [.translate xs] =
      [.translate (xs.sum offsets)] := by
  induction offsets generalizing xs with
  | nil => rfl
  | cons ys offsets ih => exact ih _

/-! The clipping shapes -/

namespace Shape

def clipBody : Dimension → Shape
  | .plane => .square halfSide
  | .space => .cube halfSide

def clipping : Dimension → Aim → Except Fault Shape
  | .plane => halfPlane
  | .space => halfSpace

theorem dim_clipBody (d : Dimension) : (clipBody d).dim = some d := by
  cases d <;> rfl

theorem clipBody_ne (d : Dimension) (o : Operation) (ps : List Parameter) (child : Shape) :
    clipBody d ≠ .operator o ps child := by
  cases d <;> simp [clipBody]

theorem clipping_eq (d : Dimension) (a : Aim) : ∃ xs, clipping d a = .ok ((clipBody d).moved xs) ∧
    xs.length = d.size ∧ ∀ x ∈ xs, x.Within grain := by
  have hside : (-halfSide).Within grain := by decide +kernel
  have hmiddle : (-halfSide / .ofInt 2).Within grain := by decide +kernel
  have hzero : (.zero false : Single).Within grain := Nat.zero_le _
  obtain ⟨xs, hxs, hlength, hwithin⟩ : ∃ xs,
      clipping d a = (clipBody d).translate (.vector xs) ∧ xs.length = d.size ∧
        ∀ x ∈ xs, x.Within grain := by
    cases d <;> cases a <;> exact ⟨_, rfl, rfl, by simp [hside, hmiddle, hzero]⟩
  refine ⟨xs, ?_, hlength, hwithin⟩
  rw [hxs]
  refine translate_of_coordinates (clipBody_ne d _) (coordinates_vector ?_)
  rw [dim_clipBody]
  rintro _ ⟨⟩
  exact hlength

end Shape

namespace Script
open Shape

variable {c : Context}

def move (offset : Item) : Call := .mk "translate" [.literal offset]

theorem runCalls_moves (values : Values) (scope : Scope) {s : Shape} {d : Dimension}
    (hd : s.dim = some d) (ht : ∀ ps child, s ≠ .operator .translate ps child)
    (hr : ∀ ps child, s ≠ .operator .rotate ps child) {xs : Coordinates}
    (hxs : xs.length = d.size) (o : Option Origin) {offsets : List Item} {yss : List Coordinates}
    (h : List.Forall₂ (fun v ys => v.value.toVector c (some d.size) = .ok ys) offsets yss) :
    Item.value <$> runCalls values c scope (offsets.map move) (.mk o (.shape (s.moved xs))) =
      .ok (.shape (s.moved (xs.sum yss))) := by
  let calls : List PlacingCall := offsets.map fun v => ⟨.translate, [.literal v]⟩
  have hcalls : offsets.map move = calls.map PlacingCall.toCall := by
    rw [List.map_map]
    rfl
  have hlayers : calls.mapM (PlacingCall.layer values c scope s) =
      .ok (yss.map Layer.translate) := by
    rw [mapM_eq_ok, List.forall₂_map_left_iff, List.forall₂_map_right_iff]
    refine h.imp fun v ys hys => ?_
    obtain ⟨n, hn, hys⟩ := bind_eq_ok.1 hys
    change (do Layer.translate <$> s.coordinates (← v.value.nest c)) = _
    rw [hn, ok_bind, coordinates, hd, Option.map_some, hys]
    rfl
  have hls : ∀ l ∈ [Layer.translate xs], l.Fits d := by simpa [Layer.Fits] using hxs
  rw [hcalls]
  refine (runCalls_stack ht hr hd hls calls o).trans ?_
  rw [hlayers]
  change Except.ok (Value.shape (s.stack ((yss.map Layer.translate).foldl _ _))) = _
  rw [Layer.foldl_push_translate]
  rfl

def clipName : Dimension → String
  | .plane => "half_plane"
  | .space => "half_space"

theorem callFunction_clip (d : Dimension) (aim : Item) :
    callFunction c (clipName d) [.item aim] =
      Command.made (do return .shape (← clipping d (← aim.value.toAim))) := by
  cases d <;> rfl

/-- Moves of a clipping shape by offsets with components no larger than its side are added to its
own offset, one after the other, in one vector. 900 of them leave all components finite. -/
theorem clipping_headroom (values : Values) (c : Context) (scope : Scope) (d : Dimension)
    {aim : Item} {a : Aim} (ha : aim.value.toAim = .ok a) {offsets : List Item}
    (hcount : offsets.length ≤ 900)
    (hoffsets : ∀ v ∈ offsets, ∃ xs, v.value.toVector c (some d.size) = .ok xs ∧
      ∀ x ∈ xs, (-halfSide).le x = true ∧ x.le halfSide = true) :
    ∃ xs yss, callFunction c (clipName d) [.item aim] =
        .ok (.new (.shape ((clipBody d).moved xs))) ∧
      List.Forall₂ (fun v ys => v.value.toVector c (some d.size) = .ok ys) offsets yss ∧
      Item.value <$> runCalls values c scope (offsets.map move)
          (.new (.shape ((clipBody d).moved xs))) =
        .ok (.shape (.operator .translate [.vector (xs.sum yss)] (clipBody d))) ∧
      (xs.sum yss).length = d.size ∧ ∀ x ∈ xs.sum yss, x.isFinite = true := by
  choose! read hread hbounds using hoffsets
  obtain ⟨xs, hclip, hxs, hwithin⟩ := clipping_eq d a
  have hcall : callFunction c (clipName d) [.item aim] =
      .ok (.new (.shape ((clipBody d).moved xs))) := by
    rw [callFunction_clip, ha, ok_bind, hclip]
    rfl
  have hreads : List.Forall₂ (fun v ys => v.value.toVector c (some d.size) = .ok ys) offsets
      (offsets.map read) := by
    rw [List.forall₂_map_right_iff, List.forall₂_same]
    exact hread
  have hrun := runCalls_moves values scope (dim_clipBody d) (clipBody_ne d _) (clipBody_ne d _)
    hxs none hreads
  have hlengths : ∀ ys ∈ offsets.map read, ys.length = xs.length := by
    rw [List.forall_mem_map]
    intro v hv
    obtain ⟨n, -, hn⟩ := bind_eq_ok.1 (hread v hv)
    exact (Int.ofNat.inj (length_of_toVector hn)).trans hxs.symm
  refine ⟨xs, _, hcall, hreads, hrun, (Coordinates.length_sum hlengths).trans hxs, fun x hx => ?_⟩
  -- the offset of the shape itself is the first of at most 901
  have hfit : 1 + (offsets.map read).length < 1000 := by
    rw [List.length_map]
    omega
  have hgrains : ∀ ys ∈ offsets.map read, ∀ y ∈ ys, y.Within grain := by
    rw [List.forall_mem_map]
    intro v hv y hy
    exact within_grain (hbounds v hv y hy)
  have hfirst : ∀ x ∈ xs, x.Within (1 * grain) := by rwa [Nat.one_mul]
  exact (Coordinates.sum_within hfit hfirst hgrains x hx).isFinite

/-- Nine hundred moves to the west by the side of the half plane to the west. Its own offset is the
side to the west and half of it to the south. -/
theorem clipping_headroom_west :
    let west : Item := .new (.vector [-halfSide, -halfSide])
    let start : Coordinates := [-halfSide, -halfSide / .ofInt 2]
    let moved := start.sum (List.replicate 900 [-halfSide, -halfSide])
    callFunction (.of #[]) "half_plane" [.item (.new (.aim .west))] =
        .ok (.new (.shape ((Shape.square halfSide).moved start))) ∧
      Item.value <$> runCalls #[] (.of #[]) .outermost (List.replicate 900 (move west))
          (.new (.shape ((Shape.square halfSide).moved start))) =
        .ok (.shape (.operator .translate [.vector moved] (.square halfSide))) ∧
      moved.length = 2 ∧ ∀ x ∈ moved, x.isFinite = true := by
  intro west start moved
  have haim : (Item.new (.aim .west)).value.toAim = .ok .west := rfl
  have hread : west.value.toVector (.of #[]) (some 2) = .ok [-halfSide, -halfSide] := rfl
  have hbounds : (-halfSide).le (-halfSide) = true ∧ (-halfSide).le halfSide = true := by
    decide +kernel
  have hcount : (List.replicate 900 west).length ≤ 900 := (List.length_replicate ..).le
  obtain ⟨xs, yss, hcall, hreads, hrun, hfinite⟩ :=
    clipping_headroom #[] (.of #[]) .outermost .plane haim hcount fun v hv =>
      ⟨_, (List.eq_of_mem_replicate hv) ▸ hread,
        fun x hx => (List.eq_of_mem_replicate (n := 2) hx) ▸ hbounds⟩
  have hstart : callFunction (.of #[]) "half_plane" [.item (.new (.aim .west))] =
      .ok (.new (.shape ((Shape.square halfSide).moved start))) := rfl
  have hsame := Except.ok.inj (hcall.symm.trans hstart)
  obtain rfl : xs = start := by simpa [Item.new, Shape.moved, clipBody] using hsame
  obtain rfl : yss = List.replicate 900 [-halfSide, -halfSide] := by
    have hlength : yss.length = 900 := by rw [← hreads.length_eq, List.length_replicate]
    refine List.eq_replicate_iff.2 ⟨hlength, fun ys hys => ?_⟩
    obtain ⟨i, hi, rfl⟩ := List.mem_iff_getElem.1 hys
    have hi' := hreads.get (by rwa [List.length_replicate, ← hlength]) hi
    rw [List.get_eq_getElem, List.getElem_replicate, List.get_eq_getElem] at hi'
    exact Except.ok.inj (hi'.symm.trans hread)
  rw [List.map_replicate] at hrun
  exact ⟨hstart, hrun, hfinite⟩

end Script
end SolidScript
