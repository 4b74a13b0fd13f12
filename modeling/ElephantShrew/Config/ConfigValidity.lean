import ElephantShrew.Config.Document
import ElephantShrew.Config.EffectiveConfig
import ElephantShrew.Config.Json

/-!
# The options in effect

The file is validated before the command line is merged in.  The flags leave
the Redis and the supervisor options alone, so these stay as valid as the file
left them; the route is checked for two names, and not for their being
different.
-/

namespace ElephantShrew.Config

open ElephantShrew.Verified.Checked

variable {J : Type} {lib : JsonLibrary J} {files : Files J} {options : CliOptions}

/-! ## What the arguments promise -/

/-- A pattern that is found stands where it is found. -/
theorem find_split {pattern text : List Char} {pos : Nat} (h : find pattern text = some pos) :
    text = text.take pos ++ pattern ++ text.drop (pos + pattern.length) := by
  induction text generalizing pos with
  | nil =>
      unfold find at h
      split at h
      · rename_i hempty
        cases h
        simp [hempty]
      · cases h
  | cons c text ih =>
      unfold find at h
      split at h
      · rename_i hhere
        cases h
        obtain ⟨rest, hrest⟩ := List.isPrefixOf_iff_prefix.mp hhere
        rw [← hrest]
        simp
      · obtain ⟨k, hk, rfl⟩ := Option.map_eq_some_iff.mp h
        have hrec := ih hk
        rw [Nat.add_right_comm]
        simpa using hrec

/-- The separator stands between the two sides. -/
theorem findSeparator_split {text : List Char} {pos size : Nat}
    (h : findSeparator text = some (pos, size)) :
    ∃ separator ∈ [['-', '>'], [':'], [',']],
      text = text.take pos ++ separator ++ text.drop (pos + size) := by
  unfold findSeparator at h
  split at h
  · rename_i hfind
    cases h
    exact ⟨['-', '>'], by simp, find_split hfind⟩
  · split at h
    · rename_i hfind
      cases h
      exact ⟨[':'], by simp, find_split hfind⟩
    · obtain ⟨k, hfind, heq⟩ := Option.map_eq_some_iff.mp h
      cases heq
      exact ⟨[','], by simp, find_split hfind⟩

/-- A route specification that is accepted is two names and a separator. -/
theorem parseRouteSpec_eq_some {spec ingressIface egressIface : String}
    (h : parseRouteSpec spec = some (ingressIface, egressIface)) :
    ingressIface ≠ "" ∧ egressIface ≠ "" ∧
      ∃ separator ∈ ["->", ":", ","], spec = ingressIface ++ separator ++ egressIface := by
  unfold parseRouteSpec at h
  split at h
  · cases h
  · rename_i pos size hfind
    dsimp only at h
    split at h
    · rename_i hnonEmpty
      cases h
      obtain ⟨separator, hmem, hsplit⟩ := findSeparator_split hfind
      refine ⟨hnonEmpty.1, hnonEmpty.2, String.ofList separator, ?_, ?_⟩
      · simp only [List.mem_cons, List.not_mem_nil, or_false] at hmem
        rcases hmem with rfl | rfl | rfl <;> decide
      · apply String.toList_injective
        simpa using hsplit
    · cases h

/-- An accepted command line with a route has no interface of its own. -/
theorem ifaces_of_routeSpec {argv : List String} (h : parseArguments argv = .ok options)
    (hroute : options.routeSpec.isSome = true) : options.ifaces = [] := by
  simp only [parseArguments, checkArguments, bind_eq_ok, rejectIf_eq_ok, pure_eq_ok] at h
  obtain ⟨_, _, _, _, _, hexclusive, _, _, rfl⟩ := h
  by_contra hifaces
  exact hexclusive ⟨hroute, hifaces⟩

/-! ## What the flags change -/

/-- The switch and the names are what a route sets and a check reads. -/
def RoutingOptions.Same (o o' : RoutingOptions) : Prop :=
  o.enabled = o'.enabled ∧ o.ingressIface = o'.ingressIface ∧ o.egressIface = o'.egressIface

theorem RoutingOptions.Same.valid {o o' : RoutingOptions} (h : o.Same o') (hvalid : o'.Valid) :
    o.Valid := by
  obtain ⟨henabled, hingress, hegress⟩ := h
  intro hon
  rw [hingress, hegress]
  exact hvalid (henabled.symm.trans hon)

theorem RoutingOptions.Same.trans {o o' o'' : RoutingOptions} (h : o.Same o') (h' : o'.Same o'') :
    o.Same o'' :=
  ⟨h.1.trans h'.1, h.2.1.trans h'.2.1, h.2.2.trans h'.2.2⟩

/-- The routing options in effect, from the file's. -/
def CliOptions.Routes (options : CliOptions) (o o' : RoutingOptions) : Prop :=
  (options.routeSpec = none ∧ o'.Same o) ∨
    ∃ spec names, options.routeSpec = some spec ∧ parseRouteSpec spec = some names ∧
      o'.Same ⟨true, names.1, names.2, false⟩

theorem applyRoute_eq_ok {config config' : RuntimeConfig}
    (h : applyRoute options config = .ok config') :
    config'.redis = config.redis ∧ config'.supervisor = config.supervisor ∧
      options.Routes config.routing config'.routing := by
  unfold applyRoute at h
  split at h
  · rename_i hnone
    cases h
    exact ⟨rfl, rfl, Or.inl ⟨hnone, rfl, rfl, rfl⟩⟩
  · rename_i spec hspec
    split at h
    · cases h
    · rename_i ingressIface egressIface hparse
      cases h
      exact ⟨rfl, rfl, Or.inr ⟨spec, _, hspec, hparse, rfl, rfl, rfl⟩⟩

theorem applyBidirectional_frame (options : CliOptions) (config : RuntimeConfig) :
    (applyBidirectional options config).redis = config.redis ∧
      (applyBidirectional options config).supervisor = config.supervisor ∧
      (applyBidirectional options config).routing.Same config.routing := by
  unfold applyBidirectional
  split
  · exact ⟨rfl, rfl, rfl, rfl, rfl⟩
  · exact ⟨rfl, rfl, rfl, rfl, rfl⟩

/-- The options in effect are the file's but for the capture options, the route
and its direction. -/
theorem loadEffectiveConfig_frame {config : RuntimeConfig}
    (h : loadEffectiveConfig lib files options = .ok config) :
    ∃ file, loadFile lib files options = .ok file ∧ config.redis = file.redis ∧
      config.supervisor = file.supervisor ∧ options.Routes file.routing config.routing := by
  simp only [loadEffectiveConfig, bind_eq_ok, rejectIf_eq_ok, pure_eq_ok] at h
  obtain ⟨file, hfile, routed, hrouted, _, _, rfl⟩ := h
  obtain ⟨hredis, hsupervisor, hroutes⟩ := applyRoute_eq_ok hrouted
  obtain ⟨hredis', hsupervisor', hsame⟩ := applyBidirectional_frame options routed
  refine ⟨file, hfile, hredis'.trans hredis, hsupervisor'.trans hsupervisor, ?_⟩
  rcases hroutes with ⟨hnone, hfileRoute⟩ | ⟨spec, names, hspec, hparse, hroute⟩
  · exact Or.inl ⟨hnone, hsame.trans hfileRoute⟩
  · exact Or.inr ⟨spec, names, hspec, hparse, hsame.trans hroute⟩

/-- A route that parses takes effect, whatever its names are. -/
theorem loadEffectiveConfig_routed {spec : String} {names : String × String} {file : RuntimeConfig}
    (hifaces : options.ifaces = []) (hspec : options.routeSpec = some spec)
    (hparse : parseRouteSpec spec = some names) (hfile : loadFile lib files options = .ok file) :
    ∃ config, loadEffectiveConfig lib files options = .ok config ∧
      config.routing.Same ⟨true, names.1, names.2, false⟩ := by
  have hroute : ∀ config, ∃ config', applyRoute options config = .ok config' ∧
      config'.routing.Same ⟨true, names.1, names.2, false⟩ := by
    intro config
    rw [applyRoute, hspec]
    dsimp only
    rw [hparse]
    exact ⟨_, rfl, rfl, rfl, rfl⟩
  obtain ⟨routed, hrouted, hsame⟩ :=
    hroute { file with capture := options.capture file.capture }
  refine ⟨applyBidirectional options routed, ?_, ?_⟩
  · simp only [loadEffectiveConfig, bind_eq_ok, rejectIf_eq_ok, pure_eq_ok]
    exact ⟨file, hfile, routed, hrouted, (), by simp [hifaces], rfl⟩
  · exact (applyBidirectional_frame options routed).2.2.trans hsame

/-! ## Validity -/

/-- The store's own checks are those of its options. -/
theorem checkStoreOptions_eq_ok {o : RedisStoreOptions} :
    checkStoreOptions o = .ok () ↔ o.Valid := by
  simp only [checkStoreOptions, bind_eq_ok, rejectIf_eq_ok, ← UInt64.pos_iff_ne_zero]
  constructor
  · intro hall
    obtain ⟨_, h1, _, h2, _, h3, _, h4, _, h5, h6⟩ := hall
    exact ⟨h1, h2, h3, h4, h5, h6⟩
  · intro h
    exact ⟨(), h.host, (), h.port, (), h.streamKey, (), h.maxPendingWrites,
      (), h.connectTimeoutMs, h.drainTimeoutMs⟩

/-- The defaults are valid, and so is a file that is accepted. -/
theorem loadFile_valid {file : RuntimeConfig} (h : loadFile lib files options = .ok file) :
    file.Valid := by
  unfold loadFile at h
  split at h
  · cases h
    exact RuntimeConfig.valid_default
  · exact loadRuntimeConfigFromJson_valid h

/-- Every configuration in effect is valid, and the store accepts its options. -/
def EffectiveValid (lib : JsonLibrary J) (files : Files J) (options : CliOptions) : Prop :=
  ∀ config, loadEffectiveConfig lib files options = .ok config →
    config.Valid ∧ checkStoreOptions config.redis = .ok ()

/-- `--route` names one interface twice. -/
def CliOptions.RoutesToItself (options : CliOptions) : Prop :=
  ∃ spec name, options.routeSpec = some spec ∧ parseRouteSpec spec = some (name, name)

/-- No file is named, or the file is accepted. -/
def FileAccepted (lib : JsonLibrary J) (files : Files J) (options : CliOptions) : Prop :=
  ∃ file, loadFile lib files options = .ok file

/-- Only a route that joins an interface to itself is not valid. -/
theorem CliOptions.Routes.valid {o o' : RoutingOptions} (h : options.Routes o o') (hvalid : o.Valid)
    (hroute : ¬options.RoutesToItself) : o'.Valid := by
  rcases h with ⟨_, hsame⟩ | ⟨spec, ⟨ingressIface, egressIface⟩, hspec, hparse, hsame⟩
  · exact hsame.valid hvalid
  · obtain ⟨hingress, hegress, _⟩ := parseRouteSpec_eq_some hparse
    refine hsame.valid fun _ => ⟨hingress, hegress, ?_⟩
    intro heq
    cases heq
    exact hroute ⟨spec, _, hspec, hparse⟩

/-- **The options in effect are valid exactly when** the command line does not
name one interface on both sides of a route, over a file that is accepted. -/
theorem loadEffectiveConfig_valid_iff (lib : JsonLibrary J) (files : Files J) {argv : List String}
    {options : CliOptions} (h : parseArguments argv = .ok options) :
    EffectiveValid lib files options ↔
      ¬(options.RoutesToItself ∧ FileAccepted lib files options) := by
  constructor
  · intro hvalid hall
    obtain ⟨⟨spec, name, hspec, hparse⟩, file, hfile⟩ := hall
    have hifaces := ifaces_of_routeSpec h (by simp [hspec])
    obtain ⟨config, hconfig, henabled, hingress, hegress⟩ :=
      loadEffectiveConfig_routed hifaces hspec hparse hfile
    have hdiffer := ((hvalid config hconfig).1.routing henabled).2.2
    exact hdiffer (hingress.trans hegress.symm)
  · intro hroute config hconfig
    obtain ⟨file, hfile, hredis, hsupervisor, hroutes⟩ := loadEffectiveConfig_frame hconfig
    have hfileValid := loadFile_valid hfile
    have hredisValid : config.redis.Valid := hredis ▸ hfileValid.redis
    have hitself : ¬options.RoutesToItself := fun hr => hroute ⟨hr, file, hfile⟩
    constructor
    · constructor
      · exact hroutes.valid hfileValid.routing hitself
      · exact hredisValid
      · exact hsupervisor ▸ hfileValid.supervisor
    · exact checkStoreOptions_eq_ok.mpr hredisValid

theorem loadEffectiveConfig_valid_iff_twoNames :
    EffectiveValid Json.library shippedFiles
      { configPath := some "elephantshrew.json", routeSpec := some "eth0->eth1" } := by
  have hargs : parseArguments ["elephantshrew", "-c", "elephantshrew.json", "--route",
      "eth0->eth1"] =
        .ok { configPath := some "elephantshrew.json", routeSpec := some "eth0->eth1" } := rfl
  apply (loadEffectiveConfig_valid_iff Json.library shippedFiles hargs).mpr
  intro hall
  obtain ⟨⟨spec, name, hspec, hparse⟩, _⟩ := hall
  cases hspec
  have hnames : parseRouteSpec "eth0->eth1" = some ("eth0", "eth1") := by decide
  rw [hnames, Option.some.injEq, Prod.mk.injEq] at hparse
  exact absurd (hparse.1.trans hparse.2.symm) (by decide)

/-- A route from an interface to itself is accepted and bridges it. -/
theorem route_to_itself_accepted :
    ∃ options config,
      parseArguments ["elephantshrew", "--route", "eth0:eth0"] = .ok options ∧
        loadEffectiveConfig Json.library shippedFiles options = .ok config ∧ ¬config.Valid := by
  refine ⟨_, _, rfl, rfl, ?_⟩
  intro h
  exact (h.routing rfl).2.2 rfl

end ElephantShrew.Config
