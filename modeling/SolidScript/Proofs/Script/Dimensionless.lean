import SolidScript.Proofs.Script.Chains

/-!
# Chains of calls on a combination of nothing

A combination of no shapes has no dimension, so that vectors around it stay as long as they are
given. What a shape of the plane or of space takes, it takes as well, but moves by vectors of
different lengths, one after the other, cannot be added.
-/

set_option autoImplicit false

namespace SolidScript
open Binary

theorem Coordinates.add_of_length_ne {xs ys : Coordinates} (h : xs.length ≠ ys.length)
    (hx : xs.length ≠ 1) (hy : ys.length ≠ 1) : xs.add ys = .error .unmatched := by
  unfold Coordinates.add
  split
  · exact absurd rfl hx
  · exact absurd rfl hy
  · exact if_neg h

namespace Layer

def moveLength? : Layer → Option Nat
  | translate xs => some xs.length
  | _ => none

/-- Whether two layers are not moves by vectors of different lengths. -/
def Matches (l m : Layer) : Prop := ∀ i ∈ l.moveLength?, ∀ j ∈ m.moveLength?, i = j

variable {l m top : Layer} {ls : List Layer}

theorem sumWith?_of_matches (h : l.Matches m) :
    ∃ o, l.sumWith? m = .ok o ∧ ∀ sum ∈ o, sum.moveLength? = m.moveLength? := by
  unfold sumWith?
  split
  · rename_i xs ys
    have hlength : xs.length = ys.length := h _ rfl _ rfl
    rw [Coordinates.add_of_length hlength]
    refine ⟨_, rfl, ?_⟩
    rintro _ ⟨⟩
    simp [moveLength?, hlength]
  · exact ⟨_, rfl, by rintro _ ⟨⟩; rfl⟩
  · refine ⟨_, rfl, fun sum hsum => ?_⟩
    split at hsum <;> cases hsum
    rfl
  · exact ⟨none, rfl, nofun⟩

theorem put_of_matches (h : top.Matches l) (below : List Layer) :
    ∃ next ms, put (top :: below) l = .ok (next :: ms) ∧ next.moveLength? = l.moveLength? := by
  obtain ⟨o, ho, hlength⟩ := sumWith?_of_matches h
  rw [put, ho]
  cases o with
  | none => exact ⟨l, top :: below, rfl, rfl⟩
  | some sum => exact ⟨sum, below, rfl, hlength sum rfl⟩

theorem exists_of_moveLength? {i : Nat} (h : l.moveLength? = some i) :
    ∃ xs, l = translate xs ∧ xs.length = i := by
  unfold moveLength? at h
  split at h
  · exact ⟨_, rfl, Option.some.inj h⟩
  · cases h

theorem put_of_not_matches (h : ¬top.Matches l) (ht : top.moveLength? ≠ some 1)
    (hl : l.moveLength? ≠ some 1) (below : List Layer) :
    put (top :: below) l = .error .unmatched := by
  simp only [Matches, Classical.not_forall, Option.mem_def] at h
  obtain ⟨i, hi, j, hj, hne⟩ := h
  obtain ⟨xs, rfl, rfl⟩ := exists_of_moveLength? hi
  obtain ⟨ys, rfl, rfl⟩ := exists_of_moveLength? hj
  have hadd : xs.add ys = .error .unmatched := by
    apply Coordinates.add_of_length_ne hne
    · simpa [moveLength?] using ht
    · simpa [moveLength?] using hl
  rw [put, sumWith?, hadd]
  rfl

theorem isChain_congr (h : l.moveLength? = m.moveLength?) :
    (l :: ls).IsChain Matches ↔ (m :: ls).IsChain Matches := by
  cases ls with
  | nil => simp
  | cons n ls => simp only [List.isChain_cons_cons, Matches, h]

theorem foldlM_put (below : List Layer) (ht : top.moveLength? ≠ some 1)
    (hls : ∀ l ∈ ls, l.moveLength? ≠ some 1) :
    ((top :: ls).IsChain Matches → ∃ ms, ls.foldlM put (top :: below) = .ok ms) ∧
      (¬(top :: ls).IsChain Matches → ls.foldlM put (top :: below) = .error .unmatched) := by
  induction ls generalizing top below with
  | nil => exact ⟨fun _ => ⟨_, rfl⟩, fun h => absurd (.singleton _) h⟩
  | cons l ls ih =>
    rw [List.forall_mem_cons] at hls
    rw [List.isChain_cons_cons, List.foldlM_cons]
    by_cases h : top.Matches l
    · obtain ⟨next, ms, hput, hnext⟩ := put_of_matches h below
      have htail := ih ms (hnext ▸ hls.1) hls.2
      rw [isChain_congr hnext] at htail
      rw [hput, ok_bind]
      exact ⟨fun hchain => htail.1 hchain.2, fun hchain => htail.2 fun hl => hchain ⟨h, hl⟩⟩
    · rw [put_of_not_matches h ht hls.1 below]
      exact ⟨fun hchain => absurd hchain.1 h, fun _ => rfl⟩

theorem foldlM_put_nil (hls : ∀ l ∈ ls, l.moveLength? ≠ some 1) :
    (ls.IsChain Matches → ∃ ms, ls.foldlM put [] = .ok ms) ∧
      (¬ls.IsChain Matches → ls.foldlM put [] = .error .unmatched) := by
  cases ls with
  | nil => exact ⟨fun _ => ⟨_, rfl⟩, fun h => absurd .nil h⟩
  | cons l ls =>
    rw [List.forall_mem_cons] at hls
    rw [List.foldlM_cons, put, ok_bind]
    exact foldlM_put [] hls.1 hls.2

end Layer

/-! Reading around nothing -/

theorem Nested.toVector_none {size : Int} {n : Nested} {xs : Coordinates}
    (h : n.toVector (some size) = .ok xs) :
    ∃ ys, n.toVector none = .ok ys ∧ (ys.length = 2 ∨ ys.length = size) := by
  unfold toVector at h ⊢
  split at h
  · rename_i heven
    obtain ⟨ys, hys, h⟩ := bind_eq_ok.1 h
    refine ⟨ys, ?_, ?_⟩
    · rw [if_pos heven, hys]
      rfl
    · have hlength : size = (promote (some size) ys).length := by
        simp only [checkLength] at h
        split at h
        · assumption
        · cases h
      rw [promote] at hlength
      split at hlength
      · rename_i h2
        exact .inl h2.2
      · exact .inr hlength.symm
  · cases h

namespace Shape

variable {s e : Shape} {d : Dimension} {n : Nested}

theorem coordinates_of_dim_none {xs : Coordinates} (hd : s.dim = some d) (he : e.dim = none)
    (h : s.coordinates n = .ok xs) :
    ∃ ys, e.coordinates n = .ok ys ∧ (ys.length = 2 ∨ ys.length = d.size) := by
  rw [coordinates, hd, Option.map_some] at h
  rw [coordinates, he]
  obtain ⟨ys, hys, hlength⟩ := Nested.toVector_none h
  exact ⟨ys, hys, by exact_mod_cast hlength⟩

section
variable {ofNumber : Single → Layer} {ofVector : Coordinates → Layer} {l : Layer}

theorem map_coordinates_of_dim_none (hd : s.dim = some d) (he : e.dim = none)
    (hv : ∀ xs, ∀ i ∈ (ofVector xs).moveLength?, i = xs.length)
    (h : ofVector <$> s.coordinates n = .ok l) : ∃ m, ofVector <$> e.coordinates n = .ok m ∧
      ∀ i ∈ m.moveLength?, i = 2 ∨ i = d.size := by
  obtain ⟨xs, hxs, rfl⟩ := map_eq_ok.1 h
  obtain ⟨ys, hys, hlength⟩ := coordinates_of_dim_none hd he hxs
  refine ⟨ofVector ys, map_eq_ok.2 ⟨ys, hys, rfl⟩, fun i hi => ?_⟩
  rwa [hv ys i hi]

theorem numberOrVector_of_dim_none (hd : s.dim = some d) (he : e.dim = none)
    (hn : ∀ x, (ofNumber x).moveLength? = none) (hv : ∀ xs, (ofVector xs).moveLength? = none)
    (h : s.numberOrVector ofNumber ofVector n = .ok l) :
    ∃ m, e.numberOrVector ofNumber ofVector n = .ok m ∧
      ∀ i ∈ m.moveLength?, i = 2 ∨ i = d.size := by
  unfold numberOrVector at h ⊢
  split at h
  · obtain ⟨x, -, rfl⟩ := map_eq_ok.1 h
    exact ⟨ofNumber x, h, by simp [hn]⟩
  · exact map_coordinates_of_dim_none hd he (by simp [hv]) h

end

theorem exists_numberOrVector {p : Parameter} (ofNumber : Single → Layer)
    (ofVector : Coordinates → Layer) (hn : ∀ x, (ofNumber x).parameter = .scalar (.single x))
    (hv : ∀ xs, (ofVector xs).parameter = .vector xs) (h : s.scalarOrVector n = .ok p) :
    ∃ l, s.numberOrVector ofNumber ofVector n = .ok l := by
  rw [s.scalarOrVector_eq ofNumber ofVector hn hv, map_eq_ok] at h
  obtain ⟨l, hl, -⟩ := h
  exact ⟨l, hl⟩

end Shape

namespace Script
open Shape Command

variable {values : Values} {c : Context} {scope : Scope} {s e : Shape} {d : Dimension} {l : Layer}

theorem made_shape_eq_ok {α : Type} (read : Except Fault α) {f : α → Except Fault Shape} {a : Item}
    (h : made (do return .shape (← f (← read))) = .ok a) :
    ∃ v t, read = .ok v ∧ f v = .ok t ∧ a = .new (.shape t) := by
  cases read with
  | error e => cases h
  | ok v =>
    change made (do return .shape (← f v)) = .ok a at h
    cases ht : f v with
    | error e =>
      rw [ht] at h
      cases h
    | ok t =>
      rw [ht] at h
      cases h
      exact ⟨v, t, rfl, ht, rfl⟩

namespace Placing

theorem layer_of_dim_none {v : Value} (hd : s.dim = some d) (he : e.dim = none) (p : Placing)
    (h : p.layer c s v = .ok l) :
    ∃ m, p.layer c e v = .ok m ∧ ∀ i ∈ m.moveLength?, i = 2 ∨ i = d.size := by
  have read {r : Except Fault Nested} {f g : Nested → Except Fault Layer} (h : r >>= f = .ok l)
      (hfg : ∀ n, f n = .ok l → ∃ m, g n = .ok m ∧ ∀ i ∈ m.moveLength?, i = 2 ∨ i = d.size) :
      ∃ m, r >>= g = .ok m ∧ ∀ i ∈ m.moveLength?, i = 2 ∨ i = d.size := by
    obtain ⟨n, rfl, h⟩ := bind_eq_ok.1 h
    exact hfg n h
  cases p with
  | translate =>
    refine read h fun n h => map_coordinates_of_dim_none hd he ?_ h
    rintro xs _ ⟨⟩
    rfl
  | rotate => exact read h fun n => numberOrVector_of_dim_none hd he (fun _ => rfl) (fun _ => rfl)
  | scale => exact read h fun n => numberOrVector_of_dim_none hd he (fun _ => rfl) (fun _ => rfl)
  | scaleEach => exact read h fun n => map_coordinates_of_dim_none hd he nofun
  | mirror => exact read h fun n => map_coordinates_of_dim_none hd he nofun
  | color =>
    obtain ⟨k, hk, h⟩ := bind_eq_ok.1 h
    cases h
    exact ⟨.color k, bind_eq_ok.2 ⟨k, hk, rfl⟩, nofun⟩

theorem read_of_dim_none {operands : List Operand} (hd : s.dim = some d) (he : e.dim = none)
    {p : Placing} (h : p.read c s operands = .ok l) :
    ∃ m, p.read c e operands = .ok m ∧ ∀ i ∈ m.moveLength?, i = 2 ∨ i = d.size := by
  match operands with
  | [x] => exact p.layer_of_dim_none hd he h
  | [] => cases h
  | _ :: _ :: _ => cases h

theorem read_of_callMethod {p : Placing} {o : Option Origin} {operands : List Operand} {a : Item}
    (h : callMethod c (.mk o (.shape s)) p.method operands = .ok a) :
    ∃ t l, a = .new (.shape t) ∧ t.dim = s.dim ∧ p.read c s operands = .ok l := by
  match operands with
  | [x] =>
    cases p with
    | translate =>
      obtain ⟨n, t, hn, ht, rfl⟩ := made_shape_eq_ok (x.toValue.nest c) h
      obtain ⟨xs, hxs, ht⟩ := of_translate ht
      refine ⟨t, .translate xs, rfl, ?_, bind_eq_ok.2 ⟨n, hn, map_eq_ok.2 ⟨xs, hxs, rfl⟩⟩⟩
      obtain ⟨ps, child, p, q, rfl, -, -, rfl⟩ | ⟨-, rfl⟩ := ht <;> rfl
    | rotate =>
      obtain ⟨n, t, hn, ht, rfl⟩ := made_shape_eq_ok (scalarOrList c x.toValue) h
      obtain ⟨turn, hturn, ht⟩ := of_rotate ht
      obtain ⟨l, hl⟩ := exists_numberOrVector .turn .turnEach (fun _ => rfl) (fun _ => rfl) hturn
      refine ⟨t, l, rfl, ?_, bind_eq_ok.2 ⟨n, hn, hl⟩⟩
      obtain ⟨ps, child, p, sum, rfl, -, -, rfl⟩ | ⟨-, rfl⟩ := ht <;> rfl
    | scale =>
      obtain ⟨n, t, hn, ht, rfl⟩ := made_shape_eq_ok (scalarOrList c x.toValue) h
      obtain ⟨p, hp, rfl⟩ := of_scale ht
      obtain ⟨l, hl⟩ := exists_numberOrVector .scale .scaleEach (fun _ => rfl) (fun _ => rfl) hp
      exact ⟨_, l, rfl, rfl, bind_eq_ok.2 ⟨n, hn, hl⟩⟩
    | scaleEach =>
      obtain ⟨n, t, hn, ht, rfl⟩ := made_shape_eq_ok (x.toValue.nest c) h
      obtain ⟨xs, hxs, rfl⟩ := of_scaleEach ht
      exact ⟨_, _, rfl, rfl, bind_eq_ok.2 ⟨n, hn, map_eq_ok.2 ⟨xs, hxs, rfl⟩⟩⟩
    | mirror =>
      obtain ⟨n, t, hn, ht, rfl⟩ := made_shape_eq_ok (x.toValue.nest c) h
      obtain ⟨xs, hxs, rfl⟩ := of_mirror ht
      exact ⟨_, _, rfl, rfl, bind_eq_ok.2 ⟨n, hn, map_eq_ok.2 ⟨xs, hxs, rfl⟩⟩⟩
    | color =>
      obtain ⟨k, t, hk, ht, rfl⟩ := made_shape_eq_ok (x.toValue.toColor) h
      obtain rfl := of_color ht
      exact ⟨_, _, rfl, rfl, bind_eq_ok.2 ⟨k, hk, rfl⟩⟩
  | [] => cases p <;> cases h
  | _ :: _ :: _ => cases p <;> cases h

end Placing

theorem layers_of_runCalls (hd : s.dim = some d) (he : e.dim = none) {calls : List PlacingCall}
    {o : Option Origin} {a : Item}
    (h : runCalls values c scope (calls.map PlacingCall.toCall) (.mk o (.shape s)) = .ok a) :
    ∃ ms, calls.mapM (PlacingCall.layer values c scope e) = .ok ms ∧
      ∀ m ∈ ms, ∀ i ∈ m.moveLength?, i = 2 ∨ i = d.size := by
  induction calls generalizing s o with
  | nil => exact ⟨[], rfl, nofun⟩
  | cons call calls ih =>
    rw [List.map_cons, runCalls, bind_eq_ok] at h
    obtain ⟨b, hb, h⟩ := h
    obtain ⟨operands, hoperands, hcall⟩ := bind_eq_ok.1 hb
    obtain ⟨t, l, rfl, hdim, hl⟩ := Placing.read_of_callMethod hcall
    obtain ⟨m, hm, hlength⟩ := Placing.read_of_dim_none hd he hl
    obtain ⟨ms, hms, hlengths⟩ := ih (hdim.trans hd) h
    refine ⟨m :: ms, ?_, List.forall_mem_cons.2 ⟨hlength, hlengths⟩⟩
    have hlayer : call.layer values c scope e = .ok m := bind_eq_ok.2 ⟨operands, hoperands, hm⟩
    rw [List.mapM_cons, hlayer, hms]
    rfl

theorem runCalls_put (ht : ∀ ps child, e ≠ .operator .translate ps child)
    (hr : ∀ ps child, e ≠ .operator .rotate ps child) {calls : List PlacingCall} {ms : List Layer}
    (h : calls.mapM (PlacingCall.layer values c scope e) = .ok ms) (o : Option Origin)
    (ls : List Layer) :
    Item.value <$> runCalls values c scope (calls.map PlacingCall.toCall)
        (.mk o (.shape (e.stack ls))) =
      (fun ls => .shape (e.stack ls)) <$> ms.foldlM Layer.put ls := by
  induction calls generalizing ms o ls with
  | nil =>
    cases h
    rfl
  | cons call calls ih =>
    rw [List.mapM_cons, bind_eq_ok] at h
    obtain ⟨m, hm, h⟩ := h
    obtain ⟨ms', hms, h⟩ := bind_eq_ok.1 h
    cases h
    rw [List.map_cons, runCalls, run_put ht hr, hm, ok_bind, List.foldlM_cons]
    cases Layer.put ls m with
    | error e => rfl
    | ok ls => exact ih hms none ls

/-- A chain of calls that place or colour and that succeeds on a shape of the plane or of space, a
moved or turned one included, makes as many layers around a combination of nothing. It succeeds
there, too, if and only if no two moves one after the other are by vectors of different lengths, as
they never are if the shape was one of the plane. Otherwise the vectors cannot be added. -/
theorem chain_around_nothing (values : Values) (c : Context) (scope : Scope) (k : Kind)
    (o o' : Option Origin) (calls : List PlacingCall) (hd : s.dim = some d) {a : Item}
    (h : runCalls values c scope (calls.map PlacingCall.toCall) (.mk o (.shape s)) = .ok a) :
    let nothing : Shape := .combination k []
    let chain :=
      runCalls values c scope (calls.map PlacingCall.toCall) (.mk o' (.shape nothing))
    ∃ ls, calls.mapM (PlacingCall.layer values c scope nothing) = .ok ls ∧
      ((∃ b, chain = .ok b) ↔ ls.IsChain Layer.Matches) ∧
      (∀ e, chain = .error e → e = .unmatched) ∧
      (d = .plane → ∃ b, chain = .ok b) := by
  intro nothing chain
  obtain ⟨ls, hls, hlengths⟩ := layers_of_runCalls hd (rfl : nothing.dim = none) h
  have hchain : Item.value <$> chain = (fun ls => .shape (nothing.stack ls)) <$>
      ls.foldlM Layer.put [] := runCalls_put (by simp [nothing]) (by simp [nothing]) hls o' []
  have hok : (∃ b, chain = .ok b) ↔ ∃ ms, ls.foldlM Layer.put [] = .ok ms := by
    rw [← isOk_map (f := Item.value), hchain, isOk_map]
  have herror : ∀ e, chain = .error e ↔ ls.foldlM Layer.put [] = .error e := by
    intro e
    rw [← map_eq_error (f := Item.value), hchain, map_eq_error]
  have hwide : ∀ l ∈ ls, l.moveLength? ≠ some 1 := by
    intro l hl h1
    obtain h2 | hsize := hlengths l hl 1 h1
    · omega
    · cases d <;> cases hsize
  obtain ⟨hmatch, hunmatched⟩ := Layer.foldlM_put_nil hwide
  have hiff : (∃ b, chain = .ok b) ↔ ls.IsChain Layer.Matches := by
    rw [hok]
    constructor
    · rintro ⟨ms, hms⟩
      by_contra hnot
      cases hms.symm.trans (hunmatched hnot)
    · exact hmatch
  refine ⟨ls, hls, hiff, ?_, ?_⟩
  · intro e he
    rw [herror] at he
    by_cases hm : ls.IsChain Layer.Matches
    · obtain ⟨ms, hms⟩ := hmatch hm
      cases hms.symm.trans he
    · cases (hunmatched hm).symm.trans he
      rfl
  · rintro rfl
    rw [hiff]
    apply List.Pairwise.isChain
    apply List.pairwise_of_forall_mem_list
    intro l hl m hm i hi j hj
    have hsize : ∀ l ∈ ls, ∀ i ∈ l.moveLength?, i = 2 := fun l hl i hi => by
      simpa [Dimension.size] using hlengths l hl i hi
    rw [hsize l hl i hi, hsize m hm j hj]

def PlacingCall.of (p : Placing) (v : Value) : PlacingCall := ⟨p, [.literal (.new v)]⟩

theorem chain_around_nothing_turned :
    let x : Single := .ofInt 1
    let calls : List PlacingCall := [.of .translate (.vector [x, x]), .of .rotate (.single x),
      .of .translate (.vector [x, x, x])]
    ∃ b, runCalls #[] (.of #[]) .outermost (calls.map PlacingCall.toCall)
      (.new (.shape (.combination .union []))) = .ok b := by
  intro x calls
  have hcube : ∃ a, runCalls #[] (.of #[]) .outermost (calls.map PlacingCall.toCall)
      (.new (.shape (.cube x))) = .ok a := ⟨_, rfl⟩
  obtain ⟨a, ha⟩ := hcube
  obtain ⟨ls, hls, hiff, -⟩ := chain_around_nothing #[] (.of #[]) .outermost .union none none calls
    rfl ha
  cases hls
  apply hiff.2
  simp [Layer.Matches, Layer.moveLength?]

/-- Without the turn the steps move a cube, but around a combination of nothing they do not add
up. -/
theorem nothing_unmatched :
    let x : Single := .ofInt 1
    let calls : List PlacingCall := [.of .translate (.vector [x, x]),
      .of .translate (.vector [x, x, x])]
    let chain (s : Shape) :=
      runCalls #[] (.of #[]) .outermost (calls.map PlacingCall.toCall) (.new (.shape s))
    (∃ a, chain (.cube x) = .ok a) ∧ chain (.combination .union []) = .error .unmatched :=
  ⟨⟨_, rfl⟩, rfl⟩

end Script
end SolidScript
