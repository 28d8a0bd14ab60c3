import MeshOperator.Values.Decode

/-!
# Reading a text to its end

Reading a document leaves no more tokens than there were, and every document but the first takes the mark
before it away. So a text has no more documents than tokens and one, and reading them one after the other
comes to an end.

* `Stream.Within`: an answer of the parser leaves no more tokens than there were.
* `Stream.fuelWithin`: this holds of a node and of all that nodes are made of.
* `documentsOf`: the documents of a text up to its end or to the first fault, as data.
* `Stream.values_eq`: the bound on their number does not matter.
-/

namespace MeshOperator.Yaml

namespace Stream

variable {α β : Type} {s t : Stream}

/-! ### What the parser leaves -/

/-- If the answer is not a fault, it leaves no more tokens than `s` has. -/
def Within (s : Stream) (r : Except Fault (α × Stream)) : Prop :=
  ∀ x t, r = .ok (x, t) → t.tokens.length ≤ s.tokens.length

namespace Within

theorem error (e : Fault) : Within s (.error e : Except Fault (α × Stream)) := by
  intro x t h
  cases h

theorem ok {x : α} (h : t.tokens.length ≤ s.tokens.length) : Within s (.ok (x, t)) := by
  intro y u he
  cases he
  exact h

theorem mono {r : Except Fault (α × Stream)} (h : Within t r)
    (hts : t.tokens.length ≤ s.tokens.length) : Within s r :=
  fun x u hu => Nat.le_trans (h x u hu) hts

/-- an answer that is used with the tokens that it leaves -/
theorem bind_of {γ : Type} (left : γ → Stream) {r : Except Fault γ}
    {f : γ → Except Fault (β × Stream)}
    (hr : ∀ x, r = .ok x → (left x).tokens.length ≤ s.tokens.length)
    (hf : ∀ x, Within (left x) (f x)) : Within s (r >>= f) := by
  intro y u h
  obtain ⟨x, hx, h⟩ := bind_eq_ok.1 h
  exact Nat.le_trans (hf x y u h) (hr x hx)

theorem bind {r : Except Fault (α × Stream)} {f : α × Stream → Except Fault (β × Stream)}
    (hr : Within s r) (hf : ∀ x t, Within t (f (x, t))) : Within s (r >>= f) :=
  bind_of Prod.snd (fun x hx => hr x.1 x.2 hx) fun x => hf x.1 x.2

theorem bind_plain {r : Except Fault α} {f : α → Except Fault (β × Stream)}
    (hf : ∀ x, Within s (f x)) : Within s (r >>= f) := by
  intro y u h
  obtain ⟨x, -, h⟩ := bind_eq_ok.1 h
  exact hf x y u h

end Within

theorem length_skip_le (s : Stream) : s.skip.tokens.length ≤ s.tokens.length := by
  simp [skip]

/-- an anchor for a node leaves all tokens -/
theorem within_bind (anchor : Option String) (n m : Nat) (h : t.tokens.length ≤ s.tokens.length) :
    Within s (do return (n, ← t.bind anchor m) : Except Fault (Nat × Stream)) := by
  intro x u hu
  obtain ⟨v, hv, hu⟩ := bind_eq_ok.1 hu
  cases hu
  unfold Stream.bind at hv
  split at hv
  · cases hv
    exact h
  · split at hv
    · cases hv
    · cases hv
      exact h

/-- a collection, which is made empty and filled with what is read next -/
theorem within_collection {a : Option String} {tag : Tag} {r : Stream → Except Fault (α × Stream)}
    (hr : ∀ t, Within t (r t)) (body : α → Body) :
    Within s (do
      let (n, t) ← (do
        let (n, t) := s.push ⟨tag, .sequence []⟩
        return (n, ← t.bind a n) : Except Fault (Nat × Stream))
      let (x, u) ← r t
      return (n, u.fill n (body x)) : Except Fault (Nat × Stream)) := by
  refine .bind (within_bind a _ _ (Nat.le_refl _)) fun n t => ?_
  exact .bind (hr t) fun _ _ => .ok (Nat.le_refl _)

theorem length_of_properties {a : Option String} {g : Option (Option String)}
    (h : s.properties = .ok (a, g, t)) : t.tokens.length ≤ s.tokens.length := by
  have hskip := length_skip_le s
  have htwice : s.skip.skip.tokens.length ≤ s.tokens.length :=
    Nat.le_trans (length_skip_le s.skip) hskip
  unfold properties at h
  obtain ⟨first, -, h⟩ := bind_eq_ok.1 h
  -- an anchor, a tag, or neither comes first, and the other one may follow
  split at h
  · obtain ⟨second, -, h⟩ := bind_eq_ok.1 h
    split at h
    · obtain ⟨x, -, h⟩ := bind_eq_ok.1 h
      cases h
      exact htwice
    · cases h
      exact hskip
  · obtain ⟨second, -, h⟩ := bind_eq_ok.1 h
    split at h
    · obtain ⟨x, -, h⟩ := bind_eq_ok.1 h
      cases h
      exact htwice
    · obtain ⟨x, -, h⟩ := bind_eq_ok.1 h
      cases h
      exact hskip
  · cases h
    exact Nat.le_refl _

theorem length_of_afterComma {first : Bool} (h : afterComma first s = .ok t) :
    t.tokens.length ≤ s.tokens.length := by
  unfold afterComma at h
  split at h
  · cases h
    exact Nat.le_refl _
  · obtain ⟨next, -, h⟩ := bind_eq_ok.1 h
    split at h
    · cases h
      exact length_skip_le s
    · cases h

/-- With this much fuel, a node and the parts of one leave no more tokens than there were. -/
structure FuelWithin (fuel : Nat) : Prop where
  node : ∀ depth block bare s, Within s (node depth block bare fuel s)
  nodeUnless : ∀ depth block bare ends s, Within s (nodeUnless depth block bare ends fuel s)
  blockItems : ∀ depth s, Within s (blockItems depth fuel s)
  bareItems : ∀ depth s, Within s (bareItems depth fuel s)
  blockPairs : ∀ depth s, Within s (blockPairs depth fuel s)
  flowItems : ∀ depth first s, Within s (flowItems depth first fuel s)
  flowPairs : ∀ depth first s, Within s (flowPairs depth first fuel s)

namespace FuelWithin

variable {fuel : Nat} (h : FuelWithin fuel) (depth : Nat) (s : Stream)
include h

theorem nodeUnless_succ (block bare : Bool) (ends : List Token) :
    Within s (Stream.nodeUnless depth block bare ends (fuel + 1) s) := by
  unfold Stream.nodeUnless
  refine .bind_plain fun next => ?_
  split
  · exact .ok (Nat.le_refl _)
  · exact h.node depth block bare s

theorem blockItems_succ : Within s (Stream.blockItems depth (fuel + 1) s) := by
  unfold Stream.blockItems
  refine .bind_plain fun next => ?_
  split
  · refine .bind (.mono (h.nodeUnless _ _ _ _ _) (length_skip_le s)) fun n t => ?_
    exact .bind (h.blockItems depth t) fun _ _ => .ok (Nat.le_refl _)
  · exact .ok (length_skip_le s)
  · exact .error _

theorem bareItems_succ : Within s (Stream.bareItems depth (fuel + 1) s) := by
  unfold Stream.bareItems
  refine .bind_plain fun next => ?_
  split
  · refine .bind (.mono (h.nodeUnless _ _ _ _ _) (length_skip_le s)) fun n t => ?_
    exact .bind (h.bareItems depth t) fun _ _ => .ok (Nat.le_refl _)
  · exact .ok (Nat.le_refl _)

theorem blockPairs_succ : Within s (Stream.blockPairs depth (fuel + 1) s) := by
  unfold Stream.blockPairs
  refine .bind_plain fun next => ?_
  split
  · refine .bind (.mono (h.nodeUnless _ _ _ _ _) (length_skip_le s)) fun k t => ?_
    refine .bind_plain fun next => ?_
    dsimp only
    split
    · refine .bind (.mono (h.nodeUnless _ _ _ _ _) (length_skip_le t)) fun v u => ?_
      exact .bind (h.blockPairs depth u) fun _ _ => .ok (Nat.le_refl _)
    · refine .bind (.ok (Nat.le_refl _) : Within t (pure t.missing)) fun v u => ?_
      exact .bind (h.blockPairs depth u) fun _ _ => .ok (Nat.le_refl _)
  · exact .ok (length_skip_le s)
  · exact .error _

theorem flowItems_succ (first : Bool) : Within s (Stream.flowItems depth first (fuel + 1) s) := by
  unfold Stream.flowItems
  refine .bind_plain fun next => ?_
  split
  · exact .ok (length_skip_le s)
  · refine .bind_of id (fun t ht => length_of_afterComma ht) fun t => ?_
    refine .bind_plain fun next => ?_
    dsimp only
    split
    · exact .ok (length_skip_le t)
    · refine .bind (.mono (h.nodeUnless _ _ _ _ _) (length_skip_le t)) fun k u => ?_
      refine .bind_plain fun next => ?_
      dsimp only
      split
      · refine .bind (.mono (h.nodeUnless _ _ _ _ _) (length_skip_le u)) fun v w => ?_
        exact .bind (h.flowItems depth false (w.fill _ _)) fun _ _ => .ok (Nat.le_refl _)
      · refine .bind (.ok (Nat.le_refl _) : Within u (pure u.missing)) fun v w => ?_
        exact .bind (h.flowItems depth false (w.fill _ _)) fun _ _ => .ok (Nat.le_refl _)
    · refine .bind (h.node depth false false t) fun n u => ?_
      exact .bind (h.flowItems depth false u) fun _ _ => .ok (Nat.le_refl _)

theorem flowPairs_succ (first : Bool) : Within s (Stream.flowPairs depth first (fuel + 1) s) := by
  unfold Stream.flowPairs
  refine .bind_plain fun next => ?_
  split
  · exact .ok (length_skip_le s)
  · refine .bind_of id (fun t ht => length_of_afterComma ht) fun t => ?_
    refine .bind_plain fun next => ?_
    dsimp only
    split
    · exact .ok (length_skip_le t)
    · refine .bind (.mono (h.nodeUnless _ _ _ _ _) (length_skip_le t)) fun k u => ?_
      refine .bind_plain fun next => ?_
      dsimp only
      split
      · refine .bind (.mono (h.nodeUnless _ _ _ _ _) (length_skip_le u)) fun v w => ?_
        exact .bind (h.flowPairs depth false w) fun _ _ => .ok (Nat.le_refl _)
      · refine .bind (.ok (Nat.le_refl _) : Within u (pure u.missing)) fun v w => ?_
        exact .bind (h.flowPairs depth false w) fun _ _ => .ok (Nat.le_refl _)
    · refine .bind (h.node depth false false t) fun k u => ?_
      exact .bind (h.flowPairs depth false u.missing.2) fun _ _ => .ok (Nat.le_refl _)

theorem node_succ (block bare : Bool) : Within s (Stream.node depth block bare (fuel + 1) s) := by
  unfold Stream.node
  dsimp only
  split
  · exact .error _
  · refine .bind_plain fun first => ?_
    split
    · split
      · exact .error _
      · exact .ok (length_skip_le s)
    · refine .bind_of (fun x => x.2.2) (fun x hx => length_of_properties hx) fun x => ?_
      obtain ⟨anchor, given, t⟩ := x
      refine .bind_plain fun next => ?_
      dsimp only
      split
      · exact within_bind _ _ _ (length_skip_le t)
      · exact within_collection (fun u => .mono (h.flowItems _ _ _) (length_skip_le u)) .sequence
      · exact within_collection (fun u => .mono (h.flowPairs _ _ _) (length_skip_le u)) .mapping
      · split
        · exact within_collection (fun u => h.bareItems _ u) .sequence
        · split
          · exact within_collection (fun u => .mono (h.blockItems _ _) (length_skip_le u)) .sequence
          · split
            · exact within_collection (fun u => .mono (h.blockPairs _ _) (length_skip_le u)) .mapping
            · split
              · exact within_bind _ _ _ (Nat.le_refl _)
              · exact .error _

end FuelWithin

theorem fuelWithin (fuel : Nat) : FuelWithin fuel := by
  induction fuel with
  | zero =>
    exact ⟨fun _ _ _ _ => .error _, fun _ _ _ _ _ => .error _, fun _ _ => .error _,
      fun _ _ => .error _, fun _ _ => .error _, fun _ _ _ => .error _, fun _ _ _ => .error _⟩
  | succ fuel ih =>
    exact ⟨fun depth block bare s => ih.node_succ depth s block bare,
      fun depth block bare ends s => ih.nodeUnless_succ depth s block bare ends,
      ih.blockItems_succ, ih.bareItems_succ, ih.blockPairs_succ,
      fun depth first s => ih.flowItems_succ depth s first,
      fun depth first s => ih.flowPairs_succ depth s first⟩

/-! ### Documents -/

theorem within_content (bare : Bool) : Within s (s.content bare) := by
  unfold content
  refine .bind_plain fun next => ?_
  -- what stands behind the content is taken away with it
  have hend : ∀ (n : Nat) (t : Stream), Within t (do
      let next ← t.peek
      let t := if next = .documentEnd then t.skip else t
      return ((⟨t.nodes, n⟩ : Document), { t with nodes := #[], anchors := [] })) := by
    intro n t
    refine .bind_plain fun next => .ok ?_
    dsimp only
    split
    · exact length_skip_le t
    · exact Nat.le_refl _
  dsimp only
  split
  · exact .bind (.ok (Nat.le_refl _) : Within s (.ok s.missing)) hend
  · exact .bind ((fuelWithin _).node 0 true false s) hend

theorem length_of_directives {ts us : List Token} {version : Bool}
    {handles found : List (String × String)}
    (h : directives ts version handles = .ok (found, us)) : us.length ≤ ts.length := by
  fun_induction directives ts version handles with
  | case1 => cases h
  | case2 major ts version handles hfits ih =>
    have := ih h
    simp only [List.length_cons]
    omega
  | case3 => cases h
  | case4 name expansion ts version handles hnew ih =>
    have := ih h
    simp only [List.length_cons]
    omega
  | case5 version handles ts ih =>
    have := ih h
    simp only [List.length_cons]
    omega
  | case6 ts version handles =>
    cases h
    exact Nat.le_refl _

theorem length_skipEnds_le (s : Stream) : s.skipEnds.tokens.length ≤ s.tokens.length :=
  (List.dropWhile_suffix _).length_le

theorem length_of_marked? (h : s.marked? = .ok (some t)) : t.tokens.length < s.tokens.length := by
  have hends := length_skipEnds_le s
  unfold marked? at h
  obtain ⟨next, -, h⟩ := bind_eq_ok.1 h
  split at h
  · cases h
  · obtain ⟨⟨handles, tokens⟩, hdirectives, h⟩ := bind_eq_ok.1 h
    have hrest := length_of_directives hdirectives
    obtain ⟨mark, hmark, h⟩ := bind_eq_ok.1 h
    split at h
    · cases h
      cases tokens with
      | nil => cases hmark
      | cons token tokens =>
        have hskip : tokens.length + 1 ≤ s.tokens.length := Nat.le_trans hrest hends
        exact hskip
    · cases h

/-- A bound for the documents to come: one for each token, and one for the first, which may need none. -/
def room (first : Bool) (s : Stream) : Nat := s.tokens.length + first.toNat

theorem room_of_document? {first : Bool} {d : Document} (h : s.document? first = .ok (some (d, t))) :
    t.room false < s.room first := by
  have hlast : t.room false = t.tokens.length := rfl
  rw [hlast, room]
  unfold document? at h
  obtain ⟨next, -, h⟩ := bind_eq_ok.1 h
  split at h
  · rename_i hfirst
    have htrue : first = true := by
      simp only [Bool.and_eq_true] at hfirst
      exact hfirst.1
    obtain ⟨⟨e, u⟩, hcontent, h⟩ := bind_eq_ok.1 h
    cases h
    have hle : t.tokens.length ≤ s.tokens.length :=
      within_content (s := { s with handles := commonHandles }) true d t hcontent
    rw [htrue, Bool.toNat_true]
    omega
  · obtain ⟨marked, hmarked, h⟩ := bind_eq_ok.1 h
    cases marked with
    | none => cases h
    | some u =>
      obtain ⟨⟨e, w⟩, hcontent, h⟩ := bind_eq_ok.1 h
      cases h
      have hlt := length_of_marked? hmarked
      have hle : t.tokens.length ≤ u.tokens.length := within_content false d t hcontent
      omega

theorem room_of_nextValue? {first : Bool} {d : Data} (h : s.nextValue? first = .ok (some (d, t))) :
    t.room false < s.room first := by
  unfold nextValue? at h
  obtain ⟨next, hnext, h⟩ := bind_eq_ok.1 h
  cases next with
  | none => cases h
  | some next =>
    obtain ⟨document, rest⟩ := next
    obtain ⟨⟨store, i⟩, -, h⟩ := bind_eq_ok.1 h
    cases h
    exact room_of_document? hnext

end Stream

/-- The documents of a text: those before its end or before the first fault, and how the reading of them
ends. -/
structure Documents where
  values : List Data
  ending : Except Fault Unit

namespace Stream

/-- the documents of a text, at most `fuel` of them -/
def valuesUpTo : (fuel : Nat) → (first : Bool) → Stream → Documents
  | 0, _, _ => ⟨[], .ok ()⟩
  | fuel + 1, first, s =>
    match s.nextValue? first with
    | .error f => ⟨[], .error f⟩
    | .ok none => ⟨[], .ok ()⟩
    | .ok (some (d, rest)) =>
      let later := valuesUpTo fuel false rest
      ⟨d :: later.values, later.ending⟩

/-- with room for all documents, the bound does not matter -/
theorem valuesUpTo_eq {fuel more : Nat} {first : Bool} {s : Stream} (hfuel : s.room first < fuel)
    (hmore : s.room first < more) : valuesUpTo fuel first s = valuesUpTo more first s := by
  induction fuel generalizing more first s with
  | zero => omega
  | succ fuel ih =>
    obtain ⟨more, rfl⟩ : ∃ n, more = n + 1 := ⟨more - 1, by omega⟩
    rw [valuesUpTo, valuesUpTo]
    cases hnext : s.nextValue? first with
    | error f => rfl
    | ok next =>
      cases next with
      | none => rfl
      | some next =>
        obtain ⟨d, rest⟩ := next
        have hroom := room_of_nextValue? hnext
        have hrest : valuesUpTo fuel false rest = valuesUpTo more false rest :=
          ih (by omega) (by omega)
        simp only [hrest]

/-- the documents of a text -/
def values (first : Bool) (s : Stream) : Documents := valuesUpTo (s.tokens.length + 2) first s

theorem room_lt (first : Bool) (s : Stream) : s.room first < s.tokens.length + 2 := by
  unfold room
  have := Bool.toNat_le first
  omega

/-- The documents of a text are the first one and those behind it. -/
theorem values_eq (first : Bool) (s : Stream) :
    s.values first =
      match s.nextValue? first with
      | .error f => ⟨[], .error f⟩
      | .ok none => ⟨[], .ok ()⟩
      | .ok (some (d, rest)) => ⟨d :: (rest.values false).values, (rest.values false).ending⟩ := by
  have hroom := room_lt first s
  rw [values, valuesUpTo]
  cases hnext : s.nextValue? first with
  | error f => rfl
  | ok next =>
    cases next with
    | none => rfl
    | some next =>
      obtain ⟨d, rest⟩ := next
      have hless := room_of_nextValue? hnext
      have hrest : valuesUpTo (s.tokens.length + 1) false rest = rest.values false :=
        valuesUpTo_eq (by omega) (room_lt false rest)
      simp only [hrest]

end Stream

/-- the documents that a text holds -/
def documentsOf (text : String) : Documents :=
  (Stream.ofTokens (Tokens.ofText text.toList)).values true

end MeshOperator.Yaml
