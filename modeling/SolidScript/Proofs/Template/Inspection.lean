import SolidScript.Inspection
import SolidScript.Proofs.Template.Resolved

namespace SolidScript.Proofs

variable {t : Template} {overrides values : Bindings Float} {clamp : Bool}

theorem resolve_resolved (resolved : t.resolve overrides clamp = .ok values) :
    t.resolve values false = .ok values := by
  have keys := resolve_keys resolved
  have known : ∀ entry ∈ values, entry.1 ∈ t.defaults.keys := by
    intro entry member
    rw [← keys]
    exact List.mem_map_of_mem member
  have distinct : values.keys.Nodup := keys ▸ nodup_keys_defaults t
  have taken : values.map (t.settle false) = values := by
    rw [funext (settle_unclamped t), List.map_id']
  rw [resolve_eq_ok_iff, taken, Bindings.foldl_set_eq keys.symm distinct]
  exact ⟨known, rfl⟩

theorem rendering_of_resolve (resolved : t.resolve overrides clamp = .ok values)
    (settings : Settings) :
    t.rendering overrides settings clamp =
      .ok ⟨values, (t.program.run settings (Template.frame values)).1,
        (t.program.run settings (Template.frame values)).2.notes.reverse⟩ := by
  rw [Template.rendering, resolved]
  rfl

theorem inspect_of_resolve (resolved : t.resolve overrides clamp = .ok values)
    (settings : Settings) :
    t.inspect overrides settings clamp =
      (t.render overrides settings clamp).map (.ofMesh t.metadata values) := by
  have again := render_of_resolve (resolve_resolved resolved) settings
  rw [← render_of_resolve resolved settings] at again
  rw [← again, Template.inspect, resolved]
  exact bind_pure_eq_map _ _

theorem get?_frame (params : Bindings Float) (name : String) :
    (Template.frame params).get? name = (params.get? name).map Value.number := by
  induction params with
  | nil => rfl
  | cons entry params ih =>
    obtain ⟨key, x⟩ := entry
    rw [Template.frame, List.map_cons, Bindings.get?, Bindings.get?]
    split
    · rfl
    · exact ih

theorem get?_of_mem_params (resolved : t.resolve overrides clamp = .ok values) {p : Parameter}
    (declared : p ∈ t.metadata.params) : ∃ x, values.get? p.key = some x := by
  rw [← Option.isSome_iff_exists, Bindings.get?_isSome_iff, resolve_keys resolved,
    mem_keys_defaults]
  exact List.mem_map_of_mem declared

/-- A report tells the number that a parameter has in a frame, or nothing if it is not finite. -/
def ReportsSeed (frame : Frame) (p : Parameter) (report : ParameterReport) : Prop :=
  report.key = p.key ∧ ∃ x, frame.get? p.key = some (.number x) ∧ report.value = finite? x

theorem reports_seeds (resolved : t.resolve overrides clamp = .ok values) :
    List.Forall₂ (ReportsSeed (Template.frame values)) t.metadata.params
      (t.metadata.params.map (·.report values)) := by
  rw [List.forall₂_map_right_iff, List.forall₂_same]
  intro p declared
  obtain ⟨x, found⟩ := get?_of_mem_params resolved declared
  refine ⟨rfl, x, ?_, ?_⟩
  · rw [get?_frame, found]
    rfl
  · rw [Parameter.report, found]
    rfl

/-- An inspection and a rendering with the same overrides, settings and flag fail by the same error,
or both succeed: then the inspection has the number of triangles and the bounds of the mesh, and for
each declaration of a parameter the number that the program found in its root frame. -/
theorem inspect_agrees_with_render (t : Template) (overrides : Bindings Float)
    (settings : Settings) (clamp : Bool) :
    (∃ e, t.inspect overrides settings clamp = .error e ∧
      t.render overrides settings clamp = .error e) ∨
    ∃ inspection mesh rendering,
      t.inspect overrides settings clamp = .ok inspection ∧
      t.render overrides settings clamp = .ok mesh ∧
      t.rendering overrides settings clamp = .ok rendering ∧
      t.program.eval settings (Template.frame rendering.params) = .ok mesh ∧
      inspection.triangleCount = mesh.length ∧
      inspection.bounds = mesh.bounds? ∧
      List.Forall₂ (ReportsSeed (Template.frame rendering.params)) t.metadata.params
        inspection.params := by
  cases resolved : t.resolve overrides clamp with
  | error e =>
    refine .inl ⟨.unknownParameter e, ?_, ?_⟩
    · rw [Template.inspect, resolved]
      rfl
    · rw [Template.render, Template.rendering, resolved]
      rfl
  | ok values =>
    have rendered := render_of_resolve resolved settings
    have inspected := inspect_of_resolve resolved settings
    cases drawn : (t.program.run settings (Template.frame values)).1 with
    | error e =>
      rw [drawn] at rendered
      rw [rendered] at inspected
      exact .inl ⟨_, inspected, rendered⟩
    | ok mesh =>
      rw [drawn] at rendered
      rw [rendered] at inspected
      have ran := rendering_of_resolve resolved settings
      exact .inr ⟨_, mesh, _, inspected, rendered, ran, drawn, rfl, rfl, reports_seeds resolved⟩

end SolidScript.Proofs
