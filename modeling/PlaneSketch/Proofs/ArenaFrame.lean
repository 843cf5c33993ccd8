import PlaneSketch.Arena

namespace PlaneSketch

/-- An entry of two lists in a row is one of the first, or one of the second at the place left. -/
theorem getElem?_of_append {α : Type} {xs ys : List α} {i : Nat} {x : α}
    (h : (xs ++ ys)[i]? = some x) :
    xs[i]? = some x ∨ ∃ j, i = xs.length + j ∧ ys[j]? = some x := by
  rcases Nat.lt_or_ge i xs.length with hi | hi
  · exact .inl ((List.getElem?_append_left hi).symm.trans h)
  · rw [List.getElem?_append_right hi] at h
    exact .inr ⟨i - xs.length, (Nat.add_sub_cancel' hi).symm, h⟩

namespace Arena

/-- Names and parameters are all there is to an arena. -/
theorem ext_params {a b : Arena} (hn : b.points.map Point.name = a.points.map Point.name)
    (hp : ∀ q, b.param? q = a.param? q) : b = a := by
  obtain ⟨points⟩ := a
  obtain ⟨others⟩ := b
  congr 1
  apply List.ext_getElem?
  intro i
  have hname := congrArg (·[i]?) hn
  have hx := hp ⟨⟨i⟩, .x⟩
  have hy := hp ⟨⟨i⟩, .y⟩
  simp only [List.getElem?_map] at hname
  simp only [param?, get?] at hx hy
  cases hb : others[i]? <;> cases ha : points[i]? <;> simp_all
  rename_i p q
  obtain ⟨_, _, _⟩ := p
  obtain ⟨_, _, _⟩ := q
  exact congr (congr (congrArg Point.mk hname) hx) hy

theorem size_eq_of_names {a b : Arena} (hn : b.points.map Point.name = a.points.map Point.name) :
    b.size = a.size := by
  simpa [size] using congrArg List.length hn

theorem param?_isSome {a : Arena} {q : ParamId} : (a.param? q).isSome = a.contains q.point := by
  simp [param?, get?_isSome]

theorem modifyParam_congr {a : Arena} {q : ParamId} {r : Parameter} {f g : Parameter → Parameter}
    (hr : a.param? q = some r) (h : f r = g r) : a.modifyParam q f = a.modifyParam q g := by
  apply ext_params
  · rw [names_modifyParam, names_modifyParam]
  · intro s
    by_cases hs : q = s
    · subst hs
      simp [param?_modifyParam, hr, h]
    · simp [param?_modifyParam, hs]

theorem modifyParam_self {a : Arena} {q : ParamId} {r : Parameter} {f : Parameter → Parameter}
    (hr : a.param? q = some r) (h : f r = r) : a.modifyParam q f = a := by
  apply ext_params (names_modifyParam a q f)
  intro s
  rw [param?_modifyParam]
  split
  · rename_i hs
    subst hs
    simp [hr, h]
  · rfl

def modifyParams (a : Arena) (params : List ParamId) (f : Parameter → Parameter) : Arena :=
  params.foldl (fun a q => a.modifyParam q f) a

/-- `b` differs from `a` at most in the values of these parameters. -/
structure Moved (params : List ParamId) (a b : Arena) : Prop where
  names : b.points.map Point.name = a.points.map Point.name
  flags : ∀ q, (b.param? q).map Parameter.fixed = (a.param? q).map Parameter.fixed
  others : ∀ q, q ∉ params → b.param? q = a.param? q

theorem Moved.refl (params : List ParamId) (a : Arena) : Moved params a a :=
  ⟨rfl, fun _ => rfl, fun _ _ => rfl⟩

theorem Moved.trans {params : List ParamId} {a b c : Arena} (h : Moved params a b)
    (h' : Moved params b c) : Moved params a c :=
  ⟨h'.names.trans h.names, fun q => (h'.flags q).trans (h.flags q),
    fun q hq => (h'.others q hq).trans (h.others q hq)⟩

theorem flags_assign (a : Arena) (q r : ParamId) (v : Float) :
    ((a.modifyParam q (·.assign v)).param? r).map Parameter.fixed =
      (a.param? r).map Parameter.fixed := by
  rw [param?_modifyParam]
  split
  · rw [Option.map_map]
    rfl
  · rfl

theorem flags_writeValues (a : Arena) (params : List ParamId) (values : List Float) (r : ParamId) :
    ((a.writeValues params values).param? r).map Parameter.fixed =
      (a.param? r).map Parameter.fixed := by
  unfold writeValues
  induction params.zip values generalizing a with
  | nil => rfl
  | cons head rest ih => exact (ih _).trans (flags_assign a head.1 r head.2)

theorem Moved.writeValues (params : List ParamId) (a : Arena) (values : List Float) :
    Moved params a (a.writeValues params values) :=
  ⟨names_writeValues a params values, flags_writeValues a params values,
    param?_writeValues_of_not_mem a params values⟩

/-- Writing a value for each of the moved parameters forgets where they had moved to. -/
theorem Moved.writeValues_eq {params : List ParamId} {a b : Arena} (h : Moved params a b)
    {values : List Float} (hl : params.length ≤ values.length) :
    b.writeValues params values = a.writeValues params values := by
  induction params generalizing a b values with
  | nil => exact ext_params h.names fun q => h.others q List.not_mem_nil
  | cons q rest ih =>
    cases values with
    | nil => simp at hl
    | cons v values =>
      -- The first write makes both arenas agree on `q`, so one parameter less may differ.
      have hm : Moved rest (a.modifyParam q (·.assign v)) (b.modifyParam q (·.assign v)) := by
        refine ⟨?_, ?_, ?_⟩
        · rw [names_modifyParam, names_modifyParam, h.names]
        · intro r
          rw [flags_assign, flags_assign, h.flags r]
        · intro r hr
          rw [param?_modifyParam, param?_modifyParam]
          split
          · have hf := h.flags r
            cases ha : a.param? r <;> cases hb : b.param? r <;> simp_all [Parameter.assign]
          · rename_i hq
            exact h.others r (by simp [Ne.symm hq, hr])
      exact ih hm (by simpa using hl)

theorem param?_writeValues {params : List ParamId} (hd : params.Nodup) (a : Arena)
    {values : List Float} {i : Nat} {q : ParamId} {v : Float} (hq : params[i]? = some q)
    (hv : values[i]? = some v) :
    (a.writeValues params values).param? q = (a.param? q).map (·.assign v) := by
  induction params generalizing a values i with
  | nil => simp at hq
  | cons r rest ih =>
    obtain ⟨hr, hrest⟩ := List.nodup_cons.mp hd
    cases values with
    | nil => simp at hv
    | cons w values =>
      change ((a.modifyParam r (·.assign w)).writeValues rest values).param? q = _
      cases i with
      | zero =>
        simp only [List.getElem?_cons_zero, Option.some.injEq] at hq hv
        subst hq hv
        rw [param?_writeValues_of_not_mem _ _ _ _ hr, param?_modifyParam, if_pos rfl]
      | succ i =>
        simp only [List.getElem?_cons_succ] at hq hv
        have hne : r ≠ q := fun e => hr (e ▸ List.mem_of_getElem? hq)
        rw [ih hrest _ hq hv, param?_modifyParam, if_neg hne]

/-- Writing the values that are there changes nothing. -/
theorem writeValues_current (a : Arena) {params : List ParamId}
    (h : ∀ q ∈ params, (a.param? q).isSome = true) :
    a.writeValues params (params.filterMap fun q => (a.param? q).map Parameter.value) = a := by
  induction params with
  | nil => rfl
  | cons q rest ih =>
    obtain ⟨r, hr⟩ := Option.isSome_iff_exists.mp (h q List.mem_cons_self)
    simp only [List.filterMap_cons, hr, Option.map_some]
    change (a.modifyParam q (·.assign r.value)).writeValues rest _ = a
    rw [modifyParam_self hr rfl]
    exact ih fun s hs => h s (List.mem_cons_of_mem q hs)

/-- `b` has the points of `a`, and each value that is new in it is finite. -/
structure Rewritten (a b : Arena) : Prop where
  names : b.points.map Point.name = a.points.map Point.name
  values : ∀ q r, b.param? q = some r →
    r.value.isFinite = true ∨ (a.param? q).map Parameter.value = some r.value

theorem Rewritten.refl (a : Arena) : Rewritten a a :=
  ⟨rfl, fun _ _ h => .inr (by rw [h]; rfl)⟩

theorem Rewritten.trans {a b c : Arena} (h : Rewritten a b) (h' : Rewritten b c) :
    Rewritten a c := by
  refine ⟨h'.names.trans h.names, fun q r hr => ?_⟩
  rcases h'.values q r hr with hf | hb
  · exact .inl hf
  · obtain ⟨s, hs, he⟩ := Option.map_eq_some_iff.mp hb
    rw [← he]
    exact h.values q s hs

theorem Rewritten.modifyParam (a : Arena) (q : ParamId) {f : Parameter → Parameter}
    (hf : ∀ r, (f r).value.isFinite = true ∨ (f r).value = r.value) :
    Rewritten a (a.modifyParam q f) := by
  refine ⟨names_modifyParam a q f, fun s r hr => ?_⟩
  rw [param?_modifyParam] at hr
  split at hr
  · obtain ⟨t, ht, rfl⟩ := Option.map_eq_some_iff.mp hr
    rw [ht, Option.map_some, Option.some.injEq]
    exact (hf t).imp_right Eq.symm
  · exact .inr (by rw [hr]; rfl)

theorem Rewritten.modifyParams (a : Arena) (params : List ParamId) {f : Parameter → Parameter}
    (hf : ∀ r, (f r).value.isFinite = true ∨ (f r).value = r.value) :
    Rewritten a (a.modifyParams params f) := by
  unfold Arena.modifyParams
  induction params generalizing a with
  | nil => exact .refl a
  | cons q rest ih => exact (Rewritten.modifyParam a q hf).trans (ih _)

theorem Rewritten.assign (a : Arena) (q : ParamId) {v : Float} (hv : v.isFinite = true) :
    Rewritten a (a.modifyParam q (·.assign v)) :=
  .modifyParam a q fun _ => .inl hv

theorem Rewritten.writeValues (a : Arena) (params : List ParamId) {values : List Float}
    (hf : ∀ v ∈ values, v.isFinite = true) : Rewritten a (a.writeValues params values) := by
  unfold Arena.writeValues
  have hz : ∀ head ∈ params.zip values, head.2.isFinite = true :=
    fun head hm => hf head.2 (List.of_mem_zip hm).2
  generalize params.zip values = written at hz ⊢
  induction written generalizing a with
  | nil => exact .refl a
  | cons head rest ih =>
    have hm := Rewritten.assign a head.1 (hz head List.mem_cons_self)
    exact hm.trans (ih _ fun other ho => hz other (List.mem_cons_of_mem head ho))

end Arena

end PlaneSketch
