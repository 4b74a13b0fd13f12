import Mathlib.Data.List.Induction
import ElephantShrew.Config.Startup

/-!
# The grammar of the command line

A command line is a sequence of flags, three of them with a value that may be any
text.  `parseArguments` accepts exactly the sequences whose flags go together, and
what it refuses is refused for the first argument that is no flag, or for the flags
that do not go together.  What the program then serves is said in terms of the
flags and of the file.
-/

namespace ElephantShrew.Config

open ElephantShrew.Verified.Checked

variable {J : Type}

/-- A flag with its value. -/
inductive Flag where
  | config (path : String)
  | iface (name : String)
  | route (spec : String)
  | bidirectional
  | scanOnly
  | recordPackets
  | debugPackets
  deriving DecidableEq, Repr

namespace Flag

/-- The arguments that a flag is. -/
def arguments : Flag → List String
  | config path => ["-c", path]
  | iface name => ["-i", name]
  | route spec => ["--route", spec]
  | bidirectional => ["--bidirectional"]
  | scanOnly => ["-s"]
  | recordPackets => ["-r"]
  | debugPackets => ["-d"]

/-- What a flag sets. -/
def apply (options : CliOptions) : Flag → CliOptions
  | config path => { options with configPath := some path }
  | iface name => { options with ifaces := options.ifaces ++ [name] }
  | route spec => { options with routeSpec := some spec }
  | bidirectional => { options with bidirectionalRoute := true }
  | scanOnly => { options with scanOnly := true }
  | recordPackets => { options with recordPackets := true }
  | debugPackets => { options with debugPackets := true }

def path? : Flag → Option String
  | config path => some path
  | _ => none

def name? : Flag → Option String
  | iface name => some name
  | _ => none

def spec? : Flag → Option String
  | route spec => some spec
  | _ => none

/-- The flag is about a capture. -/
def captures : Flag → Bool
  | config _ | scanOnly => false
  | _ => true

end Flag

/-- The arguments with a value. -/
def TakesValue (arg : String) : Prop := arg = "-c" ∨ arg = "-i" ∨ arg = "--route"

/-- The arguments that start a flag. -/
def StartsFlag (arg : String) : Prop :=
  TakesValue arg ∨ arg = "--bidirectional" ∨ arg = "-s" ∨ arg = "-r" ∨ arg = "-d"

/-- Flags, and then an argument that is none or lacks its value. -/
inductive Malformed : List String → String → Prop where
  | missing (flags : List Flag) (arg : String) (h : TakesValue arg) :
      Malformed (flags.flatMap Flag.arguments ++ [arg]) ("Missing value for '" ++ arg ++ "'")
  | unknown (flags : List Flag) (arg : String) (rest : List String) (h : ¬ StartsFlag arg) :
      Malformed (flags.flatMap Flag.arguments ++ arg :: rest) ("Unknown argument '" ++ arg ++ "'")

/-! ## Reading -/

theorem readArguments_flag (f : Flag) (rest : List String) (options : CliOptions) :
    readArguments (f.arguments ++ rest) options = readArguments rest (f.apply options) := by
  conv => lhs; rw [readArguments.eq_def]
  cases f <;> simp [Flag.arguments, Flag.apply]

theorem readArguments_flags (flags : List Flag) (rest : List String) (options : CliOptions) :
    readArguments (flags.flatMap Flag.arguments ++ rest) options =
      readArguments rest (flags.foldl Flag.apply options) := by
  induction flags generalizing options with
  | nil => rfl
  | cons f flags ih =>
      rw [List.flatMap_cons, List.append_assoc, readArguments_flag, ih]
      rfl

theorem Malformed.after (f : Flag) {args : List String} {what : String} (h : Malformed args what) :
    Malformed (f.arguments ++ args) what := by
  cases h with
  | missing flags arg h =>
      rw [← List.append_assoc]
      exact .missing (f :: flags) arg h
  | unknown flags arg rest h =>
      rw [← List.append_assoc]
      exact .unknown (f :: flags) arg rest h

/-- What was read, or why not. -/
def Read (args : List String) (options : CliOptions) : Except String CliOptions → Prop
  | .ok options' => ∃ flags : List Flag,
      args = flags.flatMap Flag.arguments ∧ options' = flags.foldl Flag.apply options
  | .error what => Malformed args what

theorem Read.after (f : Flag) {args : List String} {options : CliOptions}
    {result : Except String CliOptions} (h : Read args (f.apply options) result) :
    Read (f.arguments ++ args) options result := by
  cases result with
  | ok options' =>
      obtain ⟨flags, hargs, hoptions⟩ := h
      exact ⟨f :: flags, by rw [hargs]; rfl, hoptions⟩
  | error what => exact Malformed.after f h

theorem readArguments_read (args : List String) (options : CliOptions) :
    Read args options (readArguments args options) := by
  fun_induction readArguments args options with
  | case1 options => exact ⟨[], rfl, rfl⟩
  | case2 options => exact .missing [] "-c" (Or.inl rfl)
  | case3 options path rest ih => exact ih.after (.config path)
  | case4 options => exact .missing [] "-i" (Or.inr (Or.inl rfl))
  | case5 options name rest _ ih => exact ih.after (.iface name)
  | case6 options => exact .missing [] "--route" (Or.inr (Or.inr rfl))
  | case7 options spec rest _ _ ih => exact ih.after (.route spec)
  | case8 rest options _ _ _ ih => exact ih.after .bidirectional
  | case9 rest options _ _ _ _ ih => exact ih.after .scanOnly
  | case10 rest options _ _ _ _ _ ih => exact ih.after .recordPackets
  | case11 rest options _ _ _ _ _ _ ih => exact ih.after .debugPackets
  | case12 arg rest options hc hi hroute hboth hs hr hd =>
      apply Malformed.unknown []
      rintro ((h | h | h) | h | h | h | h)
      · exact hc h
      · exact hi h
      · exact hroute h
      · exact hboth h
      · exact hs h
      · exact hr h
      · exact hd h

theorem readArguments_eq_ok {args : List String} {options options' : CliOptions} :
    readArguments args options = .ok options' ↔ ∃ flags : List Flag,
      args = flags.flatMap Flag.arguments ∧ options' = flags.foldl Flag.apply options := by
  constructor
  · intro h
    have hread := readArguments_read args options
    rw [h] at hread
    exact hread
  · rintro ⟨flags, rfl, rfl⟩
    have hread := readArguments_flags flags [] options
    rw [List.append_nil] at hread
    exact hread

theorem readArguments_eq_error {args : List String} {options : CliOptions} {what : String} :
    readArguments args options = .error what ↔ Malformed args what := by
  constructor
  · intro h
    have hread := readArguments_read args options
    rw [h] at hread
    exact hread
  · intro h
    cases h with
    | missing flags arg harg =>
        rw [readArguments_flags]
        rcases harg with rfl | rfl | rfl <;> rfl
    | unknown flags arg rest harg =>
        simp only [StartsFlag, TakesValue, not_or] at harg
        obtain ⟨⟨hc, hi, hroute⟩, hboth, hs, hr, hd⟩ := harg
        rw [readArguments_flags, readArguments.eq_def]
        simp only [hc, hi, hroute, hboth, hs, hr, hd, if_false]

/-- The arguments tell the flags. -/
theorem arguments_injective {flags flags' : List Flag}
    (h : flags.flatMap Flag.arguments = flags'.flatMap Flag.arguments) : flags = flags' := by
  induction flags generalizing flags' with
  | nil =>
      cases flags' with
      | nil => rfl
      | cons f' flags' => cases f' <;> cases h
  | cons f flags ih =>
      cases flags' with
      | nil => cases f <;> cases h
      | cons f' flags' =>
          have hhead : f = f' ∧ flags.flatMap Flag.arguments = flags'.flatMap Flag.arguments := by
            cases f <;> cases f' <;> simp_all [Flag.arguments]
          rw [hhead.1, ih hhead.2]

/-! ## What the flags say -/

/-- The options that a sequence of flags sets. -/
def optionsOf (flags : List Flag) : CliOptions where
  configPath := (flags.filterMap Flag.path?).getLast?
  ifaces := flags.filterMap Flag.name?
  routeSpec := (flags.filterMap Flag.spec?).getLast?
  recordPackets := decide (.recordPackets ∈ flags)
  debugPackets := decide (.debugPackets ∈ flags)
  bidirectionalRoute := decide (.bidirectional ∈ flags)
  scanOnly := decide (.scanOnly ∈ flags)

/-- Order matters only between flags of one name: the last file and the last route
count, and the interfaces come in their order. -/
theorem foldl_apply (flags : List Flag) : flags.foldl Flag.apply {} = optionsOf flags := by
  induction flags using List.reverseRecOn with
  | nil => rfl
  | append_singleton flags f ih =>
      rw [List.foldl_append, ih]
      cases f <;> simp [optionsOf, Flag.apply, Flag.path?, Flag.name?, Flag.spec?]

/-- Why the flags do not go together. -/
def clash (flags : List Flag) : Option String :=
  if .scanOnly ∈ flags ∧ ∃ f ∈ flags, f.captures = true then
    some "'-s' cannot be combined with capture flags"
  else if flags.filterMap Flag.spec? ≠ [] ∧ flags.filterMap Flag.name? ≠ [] then
    some "'-i' cannot be combined with '--route'"
  else if .bidirectional ∈ flags ∧ flags.filterMap Flag.spec? = [] then
    some "'--bidirectional' requires '--route'"
  else none

theorem captures_iff (flags : List Flag) :
    (∃ f ∈ flags, f.captures = true) ↔
      (flags.filterMap Flag.name? ≠ [] ∨ flags.filterMap Flag.spec? ≠ [] ∨
        .recordPackets ∈ flags ∨ .debugPackets ∈ flags ∨ .bidirectional ∈ flags) := by
  induction flags with
  | nil => simp
  | cons f flags ih =>
      have hsplit : (∃ g ∈ f :: flags, g.captures = true) ↔
          f.captures = true ∨ ∃ g ∈ flags, g.captures = true := by simp
      rw [hsplit, ih]
      cases f <;> simp [Flag.captures, Flag.name?, Flag.spec?]

/-- The checks on the options are those on the flags. -/
theorem checkArguments_optionsOf (flags : List Flag) :
    checkArguments (optionsOf flags) =
      match clash flags with
      | some what => .error what
      | none => .ok (optionsOf flags) := by
  have hscan := captures_iff flags
  have hroute : (flags.filterMap Flag.spec?).getLast?.isSome = true ↔
      flags.filterMap Flag.spec? ≠ [] := by
    simp [Option.isSome_iff_ne_none]
  unfold checkArguments clash
  simp only [optionsOf, decide_eq_true_eq, hroute, ← hscan, not_not]
  by_cases h₁ : Flag.scanOnly ∈ flags ∧ ∃ f ∈ flags, f.captures = true
  · simp only [rejectIf, if_pos h₁]
    rfl
  · simp only [rejectIf, if_neg h₁]
    by_cases h₂ : flags.filterMap Flag.spec? ≠ [] ∧ flags.filterMap Flag.name? ≠ []
    · simp only [if_pos h₂]
      rfl
    · simp only [if_neg h₂]
      by_cases h₃ : Flag.bidirectional ∈ flags ∧ flags.filterMap Flag.spec? = []
      · simp only [if_pos h₃]
        rfl
      · simp only [if_neg h₃]
        rfl

/-- The flags that stand after the name of the program. -/
def Says (argv : List String) (flags : List Flag) : Prop :=
  argv.drop 1 = flags.flatMap Flag.arguments

theorem parseArguments_flags {argv : List String} {flags : List Flag} (h : Says argv flags) :
    parseArguments argv =
      match clash flags with
      | some what => .error what
      | none => .ok (optionsOf flags) := by
  have hread : readArguments (argv.drop 1) {} = .ok (optionsOf flags) :=
    readArguments_eq_ok.mpr ⟨flags, h, (foldl_apply flags).symm⟩
  rw [parseArguments, hread]
  exact checkArguments_optionsOf flags

theorem parseArguments_of_malformed {argv : List String} {what : String}
    (h : Malformed (argv.drop 1) what) : parseArguments argv = .error what := by
  rw [parseArguments, readArguments_eq_error.mpr h]
  rfl

/-- Every command line is a sequence of flags or malformed. -/
theorem says_or_malformed (argv : List String) :
    (∃ flags, Says argv flags) ∨ ∃ what, Malformed (argv.drop 1) what := by
  cases hread : readArguments (argv.drop 1) {} with
  | ok options =>
      obtain ⟨flags, hargs, -⟩ := readArguments_eq_ok.mp hread
      exact Or.inl ⟨flags, hargs⟩
  | error what => exact Or.inr ⟨what, readArguments_eq_error.mp hread⟩

theorem parseArguments_eq_ok {argv : List String} {options : CliOptions} :
    parseArguments argv = .ok options ↔
      ∃ flags, Says argv flags ∧ clash flags = none ∧ options = optionsOf flags := by
  constructor
  · intro h
    rcases says_or_malformed argv with ⟨flags, hflags⟩ | ⟨what, hmalformed⟩
    · rw [parseArguments_flags hflags] at h
      cases hclash : clash flags with
      | none =>
          rw [hclash] at h
          exact ⟨flags, hflags, hclash, (Except.ok.inj h).symm⟩
      | some what =>
          rw [hclash] at h
          cases h
    · rw [parseArguments_of_malformed hmalformed] at h
      cases h
  · rintro ⟨flags, hflags, hclash, rfl⟩
    rw [parseArguments_flags hflags, hclash]

theorem parseArguments_eq_error {argv : List String} {what : String} :
    parseArguments argv = .error what ↔
      Malformed (argv.drop 1) what ∨ ∃ flags, Says argv flags ∧ clash flags = some what := by
  constructor
  · intro h
    rcases says_or_malformed argv with ⟨flags, hflags⟩ | ⟨what', hmalformed⟩
    · rw [parseArguments_flags hflags] at h
      cases hclash : clash flags with
      | none =>
          rw [hclash] at h
          cases h
      | some what' =>
          rw [hclash] at h
          exact Or.inr ⟨flags, hflags, by rw [hclash, Except.error.inj h]⟩
    · rw [parseArguments_of_malformed hmalformed] at h
      exact Or.inl (Except.error.inj h ▸ hmalformed)
  · rintro (hmalformed | ⟨flags, hflags, hclash⟩)
    · exact parseArguments_of_malformed hmalformed
    · rw [parseArguments_flags hflags, hclash]

/-! ## The options in effect -/

/-- The capture options of the file under the flags. -/
def capturing (flags : List Flag) (o : CaptureOptions) : CaptureOptions where
  ifaces := if flags.filterMap Flag.name? = [] then o.ifaces else flags.filterMap Flag.name?
  recordPackets := decide (.recordPackets ∈ flags) || o.recordPackets
  debugPackets := decide (.debugPackets ∈ flags) || o.debugPackets

/-- What the flags make of the file: a route of theirs takes the place of its route
and of every interface, interfaces of theirs take the place of its interfaces and
go with no route. -/
inductive Merges (flags : List Flag) (file : RuntimeConfig) : RuntimeConfig → Prop where
  | unrouted (hspec : flags.filterMap Flag.spec? = [])
      (hnames : file.routing.enabled = true → flags.filterMap Flag.name? = []) :
      Merges flags file { file with capture := capturing flags file.capture }
  | routed (spec ingressIface egressIface : String)
      (hspec : (flags.filterMap Flag.spec?).getLast? = some spec)
      (hparse : parseRouteSpec spec = some (ingressIface, egressIface)) :
      Merges flags file { file with
        capture := { capturing flags file.capture with ifaces := [] }
        routing := ⟨true, ingressIface, egressIface,
          decide (.bidirectional ∈ flags) || file.routing.bidirectional⟩ }

theorem capture_optionsOf (flags : List Flag) (o : CaptureOptions) :
    (optionsOf flags).capture o = capturing flags o := by
  unfold CliOptions.capture capturing optionsOf
  congr 1
  · simp only [ne_eq, ite_not]
  · cases decide (Flag.recordPackets ∈ flags) <;> rfl
  · cases decide (Flag.debugPackets ∈ flags) <;> rfl

/-- The first arrow, where the text before it has none. -/
theorem find_arrow {text rest : List Char} (h : ¬ ['-', '>'] <:+: text) :
    find ['-', '>'] (text ++ '-' :: '>' :: rest) = some text.length := by
  induction text with
  | nil => rfl
  | cons c text ih =>
      have htail : ¬ ['-', '>'] <:+: text := fun hin => h (hin.trans (List.suffix_cons c text).isInfix)
      have hhead : List.isPrefixOf ['-', '>'] (c :: (text ++ '-' :: '>' :: rest)) = false := by
        rw [Bool.eq_false_iff]
        intro harrow
        cases text with
        | nil => simp [List.isPrefixOf] at harrow
        | cons c' text =>
            simp only [List.cons_append, List.isPrefixOf, Bool.and_true, Bool.and_eq_true,
              beq_iff_eq] at harrow
            apply h
            rw [← harrow.1, ← harrow.2]
            exact (List.prefix_append ['-', '>'] text).isInfix
      rw [List.cons_append, find, if_neg (by rw [hhead]; exact Bool.false_ne_true), ih htail]
      rfl

/-- Any two names make a route, if the first has no arrow in it. -/
theorem parseRouteSpec_arrow {ingressIface egressIface : String} (hingress : ingressIface ≠ "")
    (hegress : egressIface ≠ "") (harrow : ¬ ['-', '>'] <:+: ingressIface.toList) :
    parseRouteSpec (ingressIface ++ "->" ++ egressIface) = some (ingressIface, egressIface) := by
  have hlist : (ingressIface ++ "->" ++ egressIface).toList =
      ingressIface.toList ++ '-' :: '>' :: egressIface.toList := by
    simp
  have hfind : find ['-', '>'] (ingressIface.toList ++ '-' :: '>' :: egressIface.toList) =
      some ingressIface.toList.length := find_arrow harrow
  unfold parseRouteSpec findSeparator
  rw [hlist, hfind]
  simp [hingress, hegress]

/-- What flags that go together leave out. -/
theorem of_clash_none {flags : List Flag} (h : clash flags = none) :
    (Flag.scanOnly ∈ flags → ∀ f ∈ flags, f.captures = false) ∧
      (flags.filterMap Flag.spec? ≠ [] → flags.filterMap Flag.name? = []) ∧
      (Flag.bidirectional ∈ flags → flags.filterMap Flag.spec? ≠ []) := by
  unfold clash at h
  split at h
  · cases h
  · next hscan =>
      split at h
      · cases h
      · next hroute =>
          split at h
          · cases h
          · next hboth =>
              refine ⟨?_, ?_, fun hmem hspec => hboth ⟨hmem, hspec⟩⟩
              · intro hmem f hf
                rw [Bool.eq_false_iff]
                exact fun hcaptures => hscan ⟨hmem, f, hf, hcaptures⟩
              · intro hspec
                by_contra hnames
                exact hroute ⟨hspec, hnames⟩

variable {lib : JsonLibrary J} {files : Files J}

theorem loadEffectiveConfig_eq_ok {flags : List Flag} (hclash : clash flags = none)
    {config : RuntimeConfig} :
    loadEffectiveConfig lib files (optionsOf flags) = .ok config ↔
      ∃ file, loadFile lib files (optionsOf flags) = .ok file ∧ Merges flags file config := by
  obtain ⟨-, hroute, hboth⟩ := of_clash_none hclash
  simp only [loadEffectiveConfig, bind_eq_ok, rejectIf_eq_ok, pure_eq_ok, capture_optionsOf]
  apply exists_congr
  intro file
  apply and_congr_right
  intro _
  cases hspec : (flags.filterMap Flag.spec?).getLast? with
  | none =>
      have hnospec : flags.filterMap Flag.spec? = [] := List.getLast?_eq_none_iff.mp hspec
      have honeWay : Flag.bidirectional ∉ flags := fun hmem => hboth hmem hnospec
      have hrouted : ∀ config : RuntimeConfig, applyRoute (optionsOf flags) config = .ok config := by
        intro config
        rw [applyRoute, show (optionsOf flags).routeSpec = none from hspec]
      have hsame : ∀ config : RuntimeConfig,
          applyBidirectional (optionsOf flags) config = config := by
        intro config
        exact if_neg (by simpa [optionsOf] using honeWay)
      simp only [hrouted, hsame, Except.ok.injEq]
      constructor
      · rintro ⟨routed, rfl, -, hfree, rfl⟩
        apply Merges.unrouted hnospec
        intro hon
        by_contra hnames
        exact hfree ⟨hon, hnames⟩
      · intro hmerges
        cases hmerges with
        | unrouted _ hnames => exact ⟨_, rfl, (), fun hboth => hboth.2 (hnames hboth.1), rfl⟩
        | routed spec _ _ hsome _ =>
            rw [hspec] at hsome
            cases hsome
  | some spec =>
      have hspecs : flags.filterMap Flag.spec? ≠ [] := by
        intro hnil
        rw [hnil] at hspec
        cases hspec
      have hnames : (optionsOf flags).ifaces = [] := hroute hspecs
      have hrouteSpec : (optionsOf flags).routeSpec = some spec := hspec
      have hbidirectional : ∀ config : RuntimeConfig, applyBidirectional (optionsOf flags) config =
          { config with routing := { config.routing with
            bidirectional := decide (.bidirectional ∈ flags) || config.routing.bidirectional } } := by
        intro config
        unfold applyBidirectional
        by_cases hmem : Flag.bidirectional ∈ flags <;> simp [optionsOf, hmem]
      simp only [applyRoute, hrouteSpec]
      cases hparse : parseRouteSpec spec with
      | none =>
          simp only [reduceCtorEq, false_and, exists_false, false_iff]
          intro hmerges
          cases hmerges with
          | unrouted hnone => exact hspecs hnone
          | routed spec' _ _ hsome hparse' =>
              rw [hspec] at hsome
              cases hsome
              rw [hparse] at hparse'
              cases hparse'
      | some names =>
          obtain ⟨ingressIface, egressIface⟩ := names
          simp only [Except.ok.injEq, hbidirectional]
          constructor
          · rintro ⟨routed, rfl, -, -, rfl⟩
            exact .routed spec ingressIface egressIface hspec hparse
          · intro hmerges
            cases hmerges with
            | unrouted hnone => exact absurd hnone hspecs
            | routed spec' _ _ hsome hparse' =>
                rw [hspec] at hsome
                cases hsome
                rw [hparse] at hparse'
                cases hparse'
                exact ⟨_, rfl, (), fun h => h.2 hnames, rfl⟩

/-! ## The law -/

/-- What a command line makes of the program. -/
structure Starts (lib : JsonLibrary J) (files : Files J) (argv : List String) : Prop where
  /-- a command line has one reading -/
  reading : ∀ flags flags', Says argv flags → Says argv flags' → flags = flags'
  /-- it is accepted for flags that go together, -/
  accepted : ∀ options, parseArguments argv = .ok options ↔
    ∃ flags, Says argv flags ∧ clash flags = none ∧ options = optionsOf flags
  /-- and refused for the first argument that is no flag, or for the flags -/
  refused : ∀ what, parseArguments argv = .error what ↔
    Malformed (argv.drop 1) what ∨ ∃ flags, Says argv flags ∧ clash flags = some what
  /-- it serves what the flags make of the file -/
  serves : ∀ devices config, start lib files devices argv = .serves config ↔
    ∃ flags file, Says argv flags ∧ clash flags = none ∧ .scanOnly ∉ flags ∧
      loadFile lib files (optionsOf flags) = .ok file ∧ Merges flags file config
  /-- any two names can be given as a route, but for an arrow in the first -/
  routes : ∀ ingressIface egressIface, ingressIface ≠ "" → egressIface ≠ "" →
    ¬ ['-', '>'] <:+: ingressIface.toList →
      parseRouteSpec (ingressIface ++ "->" ++ egressIface) = some (ingressIface, egressIface)
  /-- it lists the devices there are for `-s` with nothing but a file, which must load -/
  lists : ∀ devices, start lib files devices argv = .exits 0 ↔
    ∃ flags file names, Says argv flags ∧ .scanOnly ∈ flags ∧
      (∀ f ∈ flags, f.captures = false) ∧ loadFile lib files (optionsOf flags) = .ok file ∧
        devices = .ok names ∧ names ≠ []
  /-- and fails in every other case -/
  fails : ∀ devices code, start lib files devices argv = .exits code → code = 0 ∨ code = 1

/-- Flags that are not about a capture go together and leave the file as it is. -/
theorem of_not_captures {flags : List Flag} (h : ∀ f ∈ flags, f.captures = false) :
    clash flags = none ∧ ∀ file : RuntimeConfig, ∃ config, Merges flags file config := by
  have hnone : ∀ f ∈ flags, ¬ f.captures = true := by
    intro f hf
    rw [h f hf]
    exact Bool.false_ne_true
  have hall := (not_congr (captures_iff flags)).mp fun ⟨f, hf, hcaptures⟩ => hnone f hf hcaptures
  simp only [not_or, not_not] at hall
  obtain ⟨hnames, hspecs, -, -, hbidirectional⟩ := hall
  constructor
  · unfold clash
    rw [if_neg (fun hscan => hscan.2.elim fun f hf => hnone f hf.1 hf.2),
      if_neg (fun hroute => hroute.1 hspecs), if_neg (fun hboth => hbidirectional hboth.1)]
  · intro file
    exact ⟨_, .unrouted hspecs fun _ => hnames⟩

theorem start_eq_serves {devices : Except String (List String)} {argv : List String}
    {config : RuntimeConfig} :
    start lib files devices argv = .serves config ↔
      ∃ options, parseArguments argv = .ok options ∧ options.scanOnly = false ∧
        loadEffectiveConfig lib files options = .ok config := by
  unfold start
  cases parseArguments argv with
  | error what => simp
  | ok options =>
      cases hload : loadEffectiveConfig lib files options with
      | error what => simp [hload]
      | ok config' =>
          cases hscan : options.scanOnly with
          | true =>
              cases devices <;> simp [hscan, hload]
          | false => simp [hscan, hload]

theorem start_eq_lists {devices : Except String (List String)} {argv : List String} :
    start lib files devices argv = .exits 0 ↔
      ∃ options config names, parseArguments argv = .ok options ∧ options.scanOnly = true ∧
        loadEffectiveConfig lib files options = .ok config ∧ devices = .ok names ∧ names ≠ [] := by
  unfold start
  cases parseArguments argv with
  | error what => simp
  | ok options =>
      cases hload : loadEffectiveConfig lib files options with
      | error what => simp [hload]
      | ok config' =>
          cases hscan : options.scanOnly with
          | true =>
              cases devices with
              | error what => simp [hscan, hload]
              | ok names => simp [hscan, hload, listInterfaces]
          | false => simp [hscan, hload]

theorem start_exits {devices : Except String (List String)} {argv : List String} {code : Int}
    (h : start lib files devices argv = .exits code) : code = 0 ∨ code = 1 := by
  unfold start at h
  split at h
  · cases h
    exact Or.inr rfl
  · split at h
    · cases h
      exact Or.inr rfl
    · split at h
      · split at h
        · cases h
          unfold listInterfaces
          split
          · exact Or.inr rfl
          · exact Or.inl rfl
        · cases h
          exact Or.inr rfl
      · cases h

/-- **From the command line to the service.**  Whatever the arguments, the program
serves exactly what the flags they are make of the file, lists the devices, or
leaves with an error. -/
theorem main_starts (lib : JsonLibrary J) (files : Files J) (argv : List String) :
    Starts lib files argv := by
  constructor
  case reading =>
    intro flags flags' hflags hflags'
    exact arguments_injective (hflags.symm.trans hflags')
  case accepted => exact fun _ => parseArguments_eq_ok
  case refused => exact fun _ => parseArguments_eq_error
  case serves =>
    intro devices config
    rw [start_eq_serves]
    constructor
    · rintro ⟨options, hparse, hscan, hload⟩
      obtain ⟨flags, hflags, hclash, rfl⟩ := parseArguments_eq_ok.mp hparse
      obtain ⟨file, hfile, hmerges⟩ := (loadEffectiveConfig_eq_ok hclash).mp hload
      exact ⟨flags, file, hflags, hclash, of_decide_eq_false hscan, hfile, hmerges⟩
    · rintro ⟨flags, file, hflags, hclash, hscan, hfile, hmerges⟩
      exact ⟨optionsOf flags, parseArguments_eq_ok.mpr ⟨flags, hflags, hclash, rfl⟩,
        decide_eq_false hscan, (loadEffectiveConfig_eq_ok hclash).mpr ⟨file, hfile, hmerges⟩⟩
  case routes => exact fun _ _ => parseRouteSpec_arrow
  case lists =>
    intro devices
    rw [start_eq_lists]
    constructor
    · rintro ⟨options, config, names, hparse, hscan, hload, hdevices⟩
      obtain ⟨flags, hflags, hclash, rfl⟩ := parseArguments_eq_ok.mp hparse
      obtain ⟨file, hfile, -⟩ := (loadEffectiveConfig_eq_ok hclash).mp hload
      have hmem : Flag.scanOnly ∈ flags := of_decide_eq_true hscan
      exact ⟨flags, file, names, hflags, hmem, (of_clash_none hclash).1 hmem, hfile, hdevices⟩
    · rintro ⟨flags, file, names, hflags, hscan, hcaptures, hfile, hdevices⟩
      obtain ⟨hclash, hmerges⟩ := of_not_captures hcaptures
      obtain ⟨config, hconfig⟩ := hmerges file
      exact ⟨optionsOf flags, config, names, parseArguments_eq_ok.mpr ⟨flags, hflags, hclash, rfl⟩,
        decide_eq_true hscan, (loadEffectiveConfig_eq_ok hclash).mpr ⟨file, hfile, hconfig⟩,
        hdevices⟩
  case fails => exact fun _ _ => start_exits

end ElephantShrew.Config
