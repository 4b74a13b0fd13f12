import ElephantShrew.Bpf.SkBuff

/-!
# The active classifier

`bpf/elephantshrew_active_tc.bpf.c`.  One call of `es_active_ingress` parses
the packet into a lookup key, reads one rule from the rules map and carries it
out.  The maps may be missing; the results of the kernel helpers are inputs of
the call.
-/

namespace ElephantShrew.Bpf

open ElephantShrew.Verified

/-- A rules map, read by key. -/
abbrev Rules := EsPolicyKey → Option EsRule

/-- One call of the classifier, with everything the kernel decides about it. -/
structure PolicyCall where
  skb : SkBuff
  cpu : UInt32
  load : LoadOutcome
  /-- what `bpf_clone_redirect` returns, if it is called -/
  cloneRet : Int
  /-- what `bpf_redirect` returns, if it is called -/
  redirectRet : Int

/-- A call of a helper that sends the packet to an interface. -/
inductive PolicyEffect where
  | cloneRedirect (outIfindex : UInt32) (rc : Int)
  | redirect (outIfindex : UInt32)
  deriving DecidableEq, Repr

/-- The interface a helper was given. -/
def PolicyEffect.target : PolicyEffect → UInt32
  | .cloneRedirect out _ => out
  | .redirect out => out

/-- What a call leaves behind: its return value, the helper it called and its
counters slot. -/
structure PolicyOutcome where
  verdict : Int
  effect : Option PolicyEffect
  counters : Option EsCounters

/-- The parse of the packet: `status`, and the tuple left in the key. -/
def esActiveParse (c : PolicyCall) : EsParseStatus × EsTuple := parseLoaded c.skb c.load

/-- The two lookups, which share one key buffer. -/
def esActiveLookup (rules : Rules) (c : PolicyCall) : Option EsRule :=
  let (status, tuple) := esActiveParse c
  let key := { EsPolicyKey.zero with flow := { EsFlowKey.zero with tuple := tuple } }
  let r :=
    if status = .ok ∧ key.flow.tuple.has esTPortsValid then
      let key := { key with
        kind := 1
        flow := { key.flow with
          ifindex := c.skb.ifindex
          direction := EsDirection.ingress.toUInt8 } }
      rules key
    else none
  match r with
  | some rule => some rule
  | none =>
      -- memset(&key, 0, sizeof(key))
      let key := EsPolicyKey.zero
      rules key

/-- The selected rule carried out on the slot `s`. -/
def esActiveApply (c : PolicyCall) (selected : EsRule) (s : EsCounters) : PolicyOutcome :=
  if selected.action = esPolicyNext then ⟨esTcNext, none, some s⟩
  else if selected.action = esPolicyDrop then ⟨esTcDrop, none, some (s.add .policyDrop 1)⟩
  else if selected.outIfindex = 0 ∨ selected.outIfindex = c.skb.ifindex then
    -- invalid active configuration must have been rejected before attach
    ⟨esTcDrop, none, some (s.add .policyDrop 1)⟩
  else if selected.action = esPolicyMirror then
    let s := s.add .mirrorAttempt 1
    let s := if c.cloneRet < 0 then s.add .mirrorError 1 else s
    ⟨esTcNext, some (.cloneRedirect selected.outIfindex c.cloneRet), some s⟩
  else if selected.action = esPolicyRedirect then
    ⟨c.redirectRet, some (.redirect selected.outIfindex), some (s.add .redirectAttempt 1)⟩
  else ⟨esTcDrop, none, some s⟩

/-- `es_active_ingress`, given the two map lookups. -/
def esActiveIngress (rules : Option Rules) (s : Option EsCounters) (c : PolicyCall) :
    PolicyOutcome :=
  match rules, s with
  | some rules, some s =>
      match esActiveLookup rules c with
      | none => ⟨esTcNext, none, some s⟩
      | some selected => esActiveApply c selected s
  -- explicit initial fail-open policy
  | _, s => ⟨esTcNext, none, s⟩

end ElephantShrew.Bpf
