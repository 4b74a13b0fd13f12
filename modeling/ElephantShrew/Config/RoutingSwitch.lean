import ElephantShrew.Config.Document
import ElephantShrew.Config.Json

/-!
# The routing switch

The document's `routing.enabled` and what becomes of it.  The inference that
follows the reading does not ask whether the key was there, so a switch that
says no is honoured only while no interface is named: with a name, the accepted
document routes, or the document is refused for the name it did not give.
-/

namespace ElephantShrew.Config

variable {J : Type} {lib : JsonLibrary J} {root : J}

/-- The document says `b` under `routing.enabled`. -/
def Switch (lib : JsonLibrary J) (root : J) (b : Bool) : Prop :=
  ∃ it, entry lib root "routing" "enabled" = some it ∧ lib.getBool it = .ok b

/-- Some interface name is not empty. -/
def RoutingOptions.Named (o : RoutingOptions) : Prop := o.ingressIface ≠ "" ∨ o.egressIface ≠ ""

/-- Some interface name of the document is not empty. -/
def InterfaceNamed (lib : JsonLibrary J) (root : J) : Prop := (settingsOf lib root).routing.Named

/-- The switch of every accepted document is the document's, and is inferred
from the names when the document has none; a document that says no is accepted
when the rest of it is in order. -/
structure SwitchHonoured (lib : JsonLibrary J) (files : Files J) (path : String) : Prop where
  present : ∀ root config b, Holds lib files path root →
    loadRuntimeConfigFromJson lib files path = .ok config → Switch lib root b →
    config.routing.enabled = b
  absent : ∀ root config, Holds lib files path root →
    loadRuntimeConfigFromJson lib files path = .ok config →
    entry lib root "routing" "enabled" = none →
    (config.routing.enabled = true ↔ InterfaceNamed lib root)
  accepted : ∀ root, Holds lib files path root → Settled lib root → Switch lib root false →
    ∃ config, loadRuntimeConfigFromJson lib files path = .ok config

/-! ## What is read and what is inferred -/

theorem Switch.settings {b : Bool} (h : Switch lib root b) :
    (settingsOf lib root).routing.enabled = b := by
  obtain ⟨it, hentry, hget⟩ := h
  simp [settingsOf, routingOf, hentry, valueOr, hget, Except.toOption]

theorem settings_enabled_of_absent (h : entry lib root "routing" "enabled" = none) :
    (settingsOf lib root).routing.enabled = false := by
  simp [settingsOf, routingOf, h, valueOr]

/-- The inferred switch: the one that was read, or a name. -/
theorem RoutingOptions.infer_enabled (o : RoutingOptions) :
    o.infer.enabled = true ↔ o.enabled = true ∨ o.Named := by
  by_cases h : o.ingressIface ≠ "" ∨ o.egressIface ≠ ""
  · rw [infer, if_pos h]
    simp only [true_iff]
    exact Or.inr h
  · rw [infer, if_neg h, Named]
    simp only [h, or_false]

/-- An accepted document's switch is the one inferred from it. -/
theorem enabled_of_accepted {files : Files J} {path : String} {config : RuntimeConfig}
    (hroot : Holds lib files path root)
    (h : loadRuntimeConfigFromJson lib files path = .ok config) :
    Settled lib root ∧ (config.routing.enabled = true ↔
      (settingsOf lib root).routing.enabled = true ∨ InterfaceNamed lib root) := by
  obtain ⟨hsettled, rfl⟩ := hroot.accepted h
  exact ⟨hsettled, RoutingOptions.infer_enabled _⟩

/-- Without a name and without a switch, routing stays off and is not checked. -/
theorem infer_valid_of_unnamed (hswitch : (settingsOf lib root).routing.enabled = false)
    (hnamed : ¬InterfaceNamed lib root) : (settingsOf lib root).routing.infer.Valid := by
  intro henabled
  rw [RoutingOptions.infer_enabled, hswitch] at henabled
  exact absurd (henabled.resolve_left Bool.false_ne_true) hnamed

/-! ## The law -/

/-- **The switch is honoured exactly when** the file does not hold a document
that says no, names an interface and is otherwise in order. -/
theorem loadRuntimeConfigFromJson_honours_switch_iff (lib : JsonLibrary J) (files : Files J)
    (path : String) :
    SwitchHonoured lib files path ↔
      ¬∃ root, Holds lib files path root ∧ Settled lib root ∧ Switch lib root false ∧
        InterfaceNamed lib root := by
  constructor
  · intro h hall
    obtain ⟨root, hroot, hsettled, hswitch, hnamed⟩ := hall
    obtain ⟨config, hconfig⟩ := h.accepted root hroot hsettled hswitch
    have hoff := h.present root config false hroot hconfig hswitch
    have hon := (enabled_of_accepted hroot hconfig).2.mpr (Or.inr hnamed)
    rw [hoff] at hon
    cases hon
  · intro h
    constructor
    · intro root config b hroot hconfig hswitch
      obtain ⟨hsettled, henabled⟩ := enabled_of_accepted hroot hconfig
      rw [hswitch.settings] at henabled
      cases b with
      | true => exact henabled.mpr (Or.inl rfl)
      | false =>
          have hnamed : ¬InterfaceNamed lib root := fun hn =>
            h ⟨root, hroot, hsettled, hswitch, hn⟩
          simpa [hnamed] using henabled
    · intro root config hroot hconfig habsent
      have henabled := (enabled_of_accepted hroot hconfig).2
      rw [settings_enabled_of_absent habsent] at henabled
      simpa using henabled
    · intro root hroot hsettled hswitch
      have hnamed : ¬InterfaceNamed lib root := fun hn => h ⟨root, hroot, hsettled, hswitch, hn⟩
      have hvalid := infer_valid_of_unnamed hswitch.settings hnamed
      exact ⟨_, loadRuntimeConfigFromJson_eq_ok.mpr ⟨root, hroot, hsettled, hvalid, rfl⟩⟩

/-- The document that comes with the program says no, and routes. -/
theorem shipped_switch_overwritten :
    ¬SwitchHonoured Json.library shippedFiles "elephantshrew.json" := by
  intro h
  have hoff := h.present shipped _ false ⟨rfl, rfl⟩ rfl ⟨_, rfl, rfl⟩
  exact Bool.noConfusion hoff

end ElephantShrew.Config
