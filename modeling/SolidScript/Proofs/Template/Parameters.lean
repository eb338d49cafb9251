import SolidScript.Proofs.Bindings
import SolidScript.Proofs.Number.Order
import SolidScript.Proofs.Results
import SolidScript.Template

namespace SolidScript

/-- `r` is what `v` becomes within those limits that are finite. A value below the lower limit does
not reach the upper one, which shows if the limits are crossed. -/
structure Limits.Clamps (limits : Limits) (v r : Float) : Prop where
  below : limits.low.isFinite = true → v < limits.low → r = limits.low
  above : limits.high.isFinite = true → limits.high < v →
    ¬ (limits.low.isFinite = true ∧ v < limits.low) → r = limits.high
  within : (limits.low.isFinite = true → limits.low ≤ v) →
    (limits.high.isFinite = true → v ≤ limits.high) → r = v
  between : limits.low.isFinite = true → limits.high.isFinite = true → limits.low ≤ limits.high →
    limits.low ≤ r ∧ r ≤ limits.high

namespace Template

def LastDeclared (t : Template) (p : Parameter) : Prop :=
  ∃ before after, t.metadata.params = before ++ p :: after ∧ ∀ q ∈ after, q.key ≠ p.key

def settle (t : Template) (clamp : Bool) (entry : String × Float) : String × Float :=
  match t.limits.get? entry.1 with
  | some limits => (entry.1, if clamp then limits.clamp entry.2 else entry.2)
  | none => entry

end Template

namespace Proofs

/-! ## Limits -/

section
variable (limits : Limits) {v : Float}

theorem clamp_of_nan (nan : v.isNaN = true) : limits.clamp v = v := by
  have notBelow : ¬ v < limits.low := by
    intro less
    rw [(isNaN_of_lt less).1] at nan
    cases nan
  have notAbove : ¬ limits.high < v := by
    intro less
    rw [(isNaN_of_lt less).2] at nan
    cases nan
  simp [Limits.clamp, notBelow, notAbove]

theorem clamps_clamp (number : v.isNaN = false) : limits.Clamps v (limits.clamp v) := by
  have lower (finite : limits.low.isFinite = true) : v < limits.low ↔ ¬ limits.low ≤ v :=
    lt_iff_not_le (isNaN_of_isFinite finite) number
  have upper (finite : limits.high.isFinite = true) : limits.high < v ↔ ¬ v ≤ limits.high :=
    lt_iff_not_le number (isNaN_of_isFinite finite)
  unfold Limits.clamp
  constructor
  · intro finite less
    simp [finite, less]
  · intro finite more kept
    have notBelow : ¬ (limits.low.isFinite && decide (v < limits.low)) = true := by
      simpa using kept
    rw [if_neg notBelow]
    simp [finite, more]
  · intro least most
    have notBelow : ¬ (limits.low.isFinite && decide (v < limits.low)) = true := by
      rw [Bool.and_eq_true, decide_eq_true_eq]
      exact fun ⟨finite, less⟩ => (lower finite).mp less (least finite)
    have notAbove : ¬ (limits.high.isFinite && decide (limits.high < v)) = true := by
      rw [Bool.and_eq_true, decide_eq_true_eq]
      exact fun ⟨finite, more⟩ => (upper finite).mp more (most finite)
    rw [if_neg notBelow, if_neg notAbove]
  · intro low high ordered
    have least := le_refl_of_number (isNaN_of_isFinite low)
    have most := le_refl_of_number (isNaN_of_isFinite high)
    simp only [low, high, Bool.true_and, decide_eq_true_eq]
    split
    · exact ⟨least, ordered⟩
    · rename_i notBelow
      split
      · exact ⟨ordered, most⟩
      · rename_i notAbove
        exact ⟨not_not.mp ((lower low).not.mp notBelow), not_not.mp ((upper high).not.mp notAbove)⟩

end

/-! ## Declared keys -/

section
variable {t : Template} {overrides values : Bindings Float} {clamp : Bool}

theorem keys_defaults (t : Template) : t.defaults.keys = t.metadata.paramKeys.eraseDups := by
  rw [Template.defaults, Bindings.keys_ofPairs, List.map_map]
  rfl

theorem keys_limits (t : Template) : t.limits.keys = t.defaults.keys := by
  simp only [Template.limits, Template.defaults, Bindings.keys_ofPairs, List.map_map]
  rfl

theorem mem_keys_defaults {key : String} :
    key ∈ t.defaults.keys ↔ key ∈ t.metadata.paramKeys := by
  rw [keys_defaults, List.mem_eraseDups]

theorem nodup_keys_defaults (t : Template) : t.defaults.keys.Nodup := Bindings.nodup_keys_ofPairs _

theorem mem_paramKeys {key : String} (member : key ∈ t.defaults.keys) :
    key ∈ t.metadata.paramKeys :=
  mem_keys_defaults.mp member

theorem get?_of_lastDeclared {α : Type} {p : Parameter} (last : t.LastDeclared p)
    (value : Parameter → α) :
    (Bindings.ofPairs (t.metadata.params.map fun q => (q.key, value q))).get? p.key =
      some (value p) := by
  obtain ⟨before, after, whole, later⟩ := last
  rw [Bindings.get?_ofPairs, List.lookup_eq_some_iff, whole]
  refine ⟨(after.map fun q => (q.key, value q)).reverse,
    (before.map fun q => (q.key, value q)).reverse, by simp, ?_⟩
  intro pair member
  obtain ⟨q, among, rfl⟩ := List.mem_map.mp (List.mem_reverse.mp member)
  simpa using Ne.symm (later q among)

/-! ## Overriding -/

theorem override_of_mem {entry : String × Float} (known : entry.1 ∈ t.defaults.keys)
    (params : Bindings Float) :
    t.override clamp params entry =
      .ok (params.set (t.settle clamp entry).1 (t.settle clamp entry).2) := by
  rw [← keys_limits, ← Bindings.get?_isSome_iff, Option.isSome_iff_exists] at known
  obtain ⟨limits, found⟩ := known
  simp only [Template.override, Template.settle, found]

theorem override_of_not_mem {entry : String × Float} (unknown : entry.1 ∉ t.defaults.keys)
    (params : Bindings Float) :
    t.override clamp params entry = .error ⟨t.id, entry.1, t.defaults.keys⟩ := by
  rw [← keys_limits] at unknown
  simp only [Template.override, Bindings.get?_eq_none_of_not_mem unknown]

theorem settle_key (t : Template) (clamp : Bool) (entry : String × Float) :
    (t.settle clamp entry).1 = entry.1 := by
  unfold Template.settle
  split <;> rfl

theorem settle_unclamped (t : Template) (entry : String × Float) :
    t.settle false entry = entry := by
  unfold Template.settle
  split <;> rfl

theorem override_all (known : ∀ entry ∈ overrides, entry.1 ∈ t.defaults.keys)
    (params : Bindings Float) :
    overrides.foldlM (t.override clamp) params = .ok ((overrides.map (t.settle clamp)).foldl
      (fun b entry => Bindings.set b entry.1 entry.2) params) := by
  induction overrides generalizing params with
  | nil => rfl
  | cons entry overrides ih =>
    obtain ⟨first, others⟩ := List.forall_mem_cons.mp known
    rw [List.foldlM_cons, override_of_mem first, ok_bind, ih others]
    rfl

theorem override_all_of_unknown {before after : Bindings Float} {entry : String × Float}
    (known : ∀ entry ∈ before, entry.1 ∈ t.defaults.keys) (unknown : entry.1 ∉ t.defaults.keys)
    (params : Bindings Float) :
    (before ++ entry :: after).foldlM (t.override clamp) params =
      .error ⟨t.id, entry.1, t.defaults.keys⟩ := by
  rw [List.foldlM_append, override_all known, ok_bind, List.foldlM_cons,
    override_of_not_mem unknown]
  rfl

theorem known_or_first_unknown (t : Template) (overrides : Bindings Float) :
    (∀ entry ∈ overrides, entry.1 ∈ t.defaults.keys) ∨
      ∃ before entry after, overrides = before ++ entry :: after ∧
        (∀ entry ∈ before, entry.1 ∈ t.defaults.keys) ∧ entry.1 ∉ t.defaults.keys := by
  induction overrides with
  | nil => exact .inl nofun
  | cons entry overrides ih =>
    by_cases first : entry.1 ∈ t.defaults.keys
    · rcases ih with known | ⟨before, other, after, rfl, known, unknown⟩
      · exact .inl (List.forall_mem_cons.mpr ⟨first, known⟩)
      · exact .inr ⟨entry :: before, other, after, rfl,
          List.forall_mem_cons.mpr ⟨first, known⟩, unknown⟩
    · exact .inr ⟨[], entry, overrides, rfl, nofun, first⟩

theorem resolve_eq_ok_iff : t.resolve overrides clamp = .ok values ↔
    (∀ entry ∈ overrides, entry.1 ∈ t.defaults.keys) ∧
      values = (overrides.map (t.settle clamp)).foldl
        (fun b entry => Bindings.set b entry.1 entry.2) t.defaults := by
  unfold Template.resolve
  rcases known_or_first_unknown t overrides with known | ⟨before, entry, after, rfl, known, unknown⟩
  · rw [override_all known, Except.ok.injEq, eq_comm]
    exact (and_iff_right known).symm
  · rw [override_all_of_unknown known unknown]
    exact ⟨nofun, fun ⟨all, _⟩ => absurd (all entry (by simp)) unknown⟩

theorem resolve_eq_error_iff {e : UnknownParameter} : t.resolve overrides clamp = .error e ↔
    ∃ before key v after, overrides = before ++ (key, v) :: after ∧
      (∀ entry ∈ before, entry.1 ∈ t.defaults.keys) ∧ key ∉ t.defaults.keys ∧
      e = ⟨t.id, key, t.defaults.keys⟩ := by
  unfold Template.resolve
  constructor
  · intro fails
    rcases known_or_first_unknown t overrides with
      known | ⟨before, entry, after, rfl, known, unknown⟩
    · rw [override_all known] at fails
      cases fails
    · rw [override_all_of_unknown known unknown] at fails
      cases fails
      exact ⟨before, entry.1, entry.2, after, rfl, known, unknown, rfl⟩
  · rintro ⟨before, key, v, after, rfl, known, unknown, rfl⟩
    exact override_all_of_unknown known unknown _

/-! ## Resolved parameters -/

theorem keys_settled (t : Template) (clamp : Bool) (overrides : Bindings Float) :
    (overrides.map (t.settle clamp)).map Prod.fst = overrides.keys := by
  rw [List.map_map, Bindings.keys]
  exact List.map_congr_left fun entry _ => settle_key t clamp entry

theorem resolve_keys (resolved : t.resolve overrides clamp = .ok values) :
    values.keys = t.defaults.keys := by
  obtain ⟨known, rfl⟩ := resolve_eq_ok_iff.mp resolved
  apply Bindings.keys_foldl_set_of_mem
  rw [List.forall_mem_map]
  intro entry member
  rw [settle_key]
  exact known entry member

theorem get?_of_resolve {key : String} {v : Float} (distinct : overrides.keys.Nodup)
    (resolved : t.resolve overrides clamp = .ok values) (given : (key, v) ∈ overrides) :
    values.get? key = some (t.settle clamp (key, v)).2 := by
  obtain ⟨-, rfl⟩ := resolve_eq_ok_iff.mp resolved
  apply Bindings.get?_foldl_set_of_mem
  · rwa [keys_settled]
  · have settled := List.mem_map_of_mem (f := t.settle clamp) given
    rwa [← Prod.mk.eta (p := t.settle clamp (key, v)), settle_key] at settled

theorem get?_of_resolve_of_not_mem {key : String}
    (resolved : t.resolve overrides clamp = .ok values) (absent : key ∉ overrides.keys) :
    values.get? key = t.defaults.get? key := by
  obtain ⟨-, rfl⟩ := resolve_eq_ok_iff.mp resolved
  apply Bindings.get?_foldl_set_of_not_mem
  rwa [keys_settled]

theorem resolve_perm {overrides' : Bindings Float} (distinct : overrides.keys.Nodup)
    (same : overrides'.Perm overrides) (resolved : t.resolve overrides clamp = .ok values) :
    t.resolve overrides' clamp = .ok values := by
  have known : ∀ entry ∈ overrides', entry.1 ∈ t.defaults.keys :=
    fun entry member => (resolve_eq_ok_iff.mp resolved).1 entry (same.mem_iff.mp member)
  obtain ⟨values', resolved'⟩ : ∃ values', t.resolve overrides' clamp = .ok values' :=
    ⟨_, resolve_eq_ok_iff.mpr ⟨known, rfl⟩⟩
  have keys := resolve_keys resolved
  have distinct' : overrides'.keys.Nodup := (same.map Prod.fst).nodup_iff.mpr distinct
  have values_eq : values = values' := by
    refine Bindings.eq_of_keys_of_get? (keys ▸ nodup_keys_defaults t)
      (keys.trans (resolve_keys resolved').symm) fun key => ?_
    by_cases given : key ∈ overrides.keys
    · obtain ⟨⟨_, v⟩, member, rfl⟩ := List.mem_map.mp given
      rw [get?_of_resolve distinct resolved member,
        get?_of_resolve distinct' resolved' (same.mem_iff.mpr member)]
    · have absent : key ∉ overrides'.keys := fun member =>
        given ((same.map Prod.fst).mem_iff.mp member)
      rw [get?_of_resolve_of_not_mem resolved given, get?_of_resolve_of_not_mem resolved' absent]
  rw [resolved', values_eq]

theorem settle_of_lastDeclared {p : Parameter} (last : t.LastDeclared p) (v : Float) :
    (clamp = false ∨ v.isNaN = true → (t.settle clamp (p.key, v)).2 = v) ∧
      (clamp = true → v.isNaN = false →
        Limits.Clamps ⟨p.min, p.max⟩ v (t.settle clamp (p.key, v)).2) := by
  have limits : t.limits.get? p.key = some ⟨p.min, p.max⟩ := get?_of_lastDeclared last _
  simp only [Template.settle, limits]
  constructor
  · rintro (rfl | nan)
    · rfl
    · rw [clamp_of_nan _ nan, ite_self]
  · rintro rfl number
    exact clamps_clamp _ number

/-- Parameters are resolved to all declared keys in the order of their first declarations. A key
keeps the default of its last declaration unless it is overridden: then it has the given value, or
if `clamp` is set that value within the limits of the declaration. Resolving fails exactly if an
overridden key is not declared, and tells the first such key. The order of the overrides does not
matter. -/
theorem resolve_overlays_defaults (t : Template) (overrides : Bindings Float) (clamp : Bool)
    (distinct : overrides.keys.Nodup) :
    (∀ e, t.resolve overrides clamp = .error e ↔
      ∃ before key v after, overrides = before ++ (key, v) :: after ∧
        (∀ entry ∈ before, entry.1 ∈ t.metadata.paramKeys) ∧ key ∉ t.metadata.paramKeys ∧
        e = ⟨t.id, key, t.metadata.paramKeys.eraseDups⟩) ∧
    ((∀ key ∈ overrides.keys, key ∈ t.metadata.paramKeys) →
      ∃ values, t.resolve overrides clamp = .ok values ∧
        values.keys = t.metadata.paramKeys.eraseDups ∧
        (∀ p, t.LastDeclared p →
          (p.key ∉ overrides.keys → values.get? p.key = some p.defaultValue) ∧
          ∀ v, (p.key, v) ∈ overrides → ∃ r, values.get? p.key = some r ∧
            (clamp = false ∨ v.isNaN = true → r = v) ∧
            (clamp = true → v.isNaN = false → Limits.Clamps ⟨p.min, p.max⟩ v r)) ∧
        ∀ overrides' : Bindings Float, overrides'.Perm overrides →
          t.resolve overrides' clamp = .ok values) := by
  constructor
  · intro e
    rw [resolve_eq_error_iff]
    simp only [keys_defaults, List.mem_eraseDups]
  · intro known
    obtain ⟨values, resolved⟩ : ∃ values, t.resolve overrides clamp = .ok values := by
      refine ⟨_, resolve_eq_ok_iff.mpr ⟨fun entry member => ?_, rfl⟩⟩
      exact mem_keys_defaults.mpr (known entry.1 (List.mem_map_of_mem member))
    refine ⟨values, resolved, ?_, fun p last => ⟨fun absent => ?_, fun v given => ?_⟩,
      fun _ same => resolve_perm distinct same resolved⟩
    · rw [resolve_keys resolved, keys_defaults]
    · rw [get?_of_resolve_of_not_mem resolved absent]
      exact get?_of_lastDeclared last _
    · exact ⟨_, get?_of_resolve distinct resolved given, settle_of_lastDeclared last v⟩

end

def doorTemplate : Template where
  source := ""
  metadata := { Metadata.named "door" with
    params := [⟨"w", "Width", 0, 9, 1, 4⟩, ⟨"h", "Height", 0, 9, 1, 5⟩,
      ⟨"w", "Width", 2, Number.nan, 1, 3⟩] }
  program := []

theorem doorTemplate_overlaid : Bindings.keys [("w", (1 : Float))] = ["w"] ∧
    ∃ values, doorTemplate.resolve [("w", 1)] true = .ok values ∧
      values.keys = ["w", "h"] ∧ values.get? "h" = some 5 ∧ values.get? "w" = some 2 := by
  have distinct : (Bindings.keys [("w", (1 : Float))]).Nodup := by decide
  obtain ⟨-, resolves⟩ := resolve_overlays_defaults doorTemplate [("w", 1)] true distinct
  obtain ⟨values, resolved, keys, declared, -⟩ := resolves (by decide)
  have height : doorTemplate.LastDeclared ⟨"h", "Height", 0, 9, 1, 5⟩ :=
    ⟨[_], [_], rfl, by simp⟩
  have width : doorTemplate.LastDeclared ⟨"w", "Width", 2, Number.nan, 1, 3⟩ :=
    ⟨[_, _], [], rfl, nofun⟩
  obtain ⟨r, found, -, clamped⟩ := (declared _ width).2 1 List.mem_cons_self
  have least : r = 2 := (clamped rfl (by decide)).below (by decide) (by decide)
  refine ⟨rfl, values, resolved, keys, (declared _ height).1 (by decide), ?_⟩
  rw [← least]
  exact found

end Proofs

end SolidScript
