import Aeterna.Context.Assembler

namespace Aeterna.Context
open Lib (Stamped TimedCache Visit)
open Lib.TimedCache

variable {f : Float}

/-- The arguments of `assemble_context`, and the latency that its clock measures. -/
structure Call (f : Float) where
  queryEmbedding : Option (List f.F)
  sources : List (SummarySource f)
  tokenBudget : Option UInt32
  latencyMs : Nat

structure ContextAssembler (f : Float) where
  config : AssemblerConfig f
  cache : TimedCache CacheKey (AssembledContext f) := {}

structure Assembly (f : Float) where
  context : AssembledContext f
  hitCache : Bool

def AssemblerConfig.ttl (config : AssemblerConfig f) : Nat := config.cacheTtlSecs * 10 ^ 9

section
variable (hashes : Hashes f)

def AssemblerConfig.cacheKey (config : AssemblerConfig f) (call : Call f) : CacheKey :=
  CacheKey.new hashes call.queryEmbedding (call.tokenBudget.getD config.defaultTokenBudget) config.viewMode

def AssemblerConfig.assemble (config : AssemblerConfig f) (call : Call f) : AssembledContext f :=
  let budget := call.tokenBudget.getD config.defaultTokenBudget
  let result := config.assembleContextInternal hashes call.queryEmbedding call.sources (some budget)
  { result with
    timedOut := call.latencyMs ≥ config.assemblyTimeoutMs
    partialReturn := config.enableEarlyTermination ∧ result.totalTokens < budget }

variable (a : ContextAssembler f)

def ContextAssembler.assembleContext (call : Visit (Call f)) : Assembly f × ContextAssembler f :=
  let result := a.config.assemble hashes call.args
  if a.config.enableCaching then
    let key := a.config.cacheKey hashes call.args
    let asked := a.cache.wait call.looked
    match asked.find a.config.ttl key with
    | some context => (⟨{ context with timedOut := false, partialReturn := false }, true⟩, { a with cache := asked })
    | none =>
      let retained := (asked.wait call.swept).sweep a.config.ttl
      (⟨result, false⟩, { a with cache := (retained.wait call.kept).keep key result })
  else (⟨result, false⟩, a)

def ContextAssembler.run (calls : List (Visit (Call f))) : ContextAssembler f :=
  calls.foldl (fun a call => (a.assembleContext hashes call).2) a

/-- The view returned is the one that these arguments have. -/
def ContextAssembler.Transparent (call : Visit (Call f)) : Prop :=
  (a.assembleContext hashes call).1.hitCache = true →
    (a.assembleContext hashes call).1.context.view =
      (a.config.assembleContextInternal hashes call.args.queryEmbedding call.args.sources call.args.tokenBudget).view

instance (a : ContextAssembler f) (call : Visit (Call f)) : Decidable (a.Transparent hashes call) :=
  inferInstanceAs (Decidable (_ → _))

def AssemblerConfig.answeredBy (config : AssemblerConfig f) (earlier : List (Visit (Call f)))
    (call : Visit (Call f)) : Option (Visit (Call f)) :=
  origin config.ttl (config.cacheKey hashes) earlier call

def AssemblerConfig.Attributed (config : AssemblerConfig f) (earlier : List (Visit (Call f)))
    (call : Visit (Call f)) : Prop :=
  ∀ source, config.answeredBy hashes earlier call = some source →
    source.args.queryEmbedding = call.args.queryEmbedding ∧ source.args.sources = call.args.sources

end

section
variable {hashes : Hashes f}

theorem assembleContext_cached {a : ContextAssembler f} (caching : a.config.enableCaching = true)
    (call : Visit (Call f)) :
    let visited := a.cache.visit a.config.ttl (a.config.cacheKey hashes)
        (fun v => a.config.assemble hashes v.args) call
    (a.assembleContext hashes call).2 = { a with cache := visited.2 } ∧
      ∀ context, (a.assembleContext hashes call).1 = ⟨context, true⟩ →
        ∃ kept, visited.1 = some kept ∧ context = { kept with timedOut := false, partialReturn := false } := by
  intro visited
  cases found : (a.cache.wait call.looked).find a.config.ttl (a.config.cacheKey hashes call.args) with
  | some kept =>
    have shape : visited = (some kept, a.cache.wait call.looked) := visit_found _ _ _ found
    simp only [ContextAssembler.assembleContext, caching, if_true, found, shape, true_and]
    intro context answered
    cases answered
    exact ⟨kept, rfl, rfl⟩
  | none =>
    have shape := visit_missed a.config.ttl (a.config.cacheKey hashes)
      (fun v => a.config.assemble hashes v.args) found
    have same : visited = _ := shape
    simp only [ContextAssembler.assembleContext, caching, if_true, found, same, true_and]
    intro context answered
    cases answered

theorem run_concat (a : ContextAssembler f) (earlier : List (Visit (Call f))) (call : Visit (Call f)) :
    a.run hashes (earlier ++ [call]) = ((a.run hashes earlier).assembleContext hashes call).2 := by
  simp [ContextAssembler.run]

variable {config : AssemblerConfig f}

theorem run_cached (caching : config.enableCaching = true) (calls : List (Visit (Call f))) :
    (ContextAssembler.mk config {}).run hashes calls = ⟨config, after config.ttl (config.cacheKey hashes)
        (fun v => config.assemble hashes v.args) calls⟩ := by
  induction calls using List.reverseRecOn with
  | nil => rfl
  | append_singleton earlier call ih =>
    rw [after_concat, run_concat, ih]
    exact (assembleContext_cached (a := ⟨config, _⟩) caching call).1

theorem run_uncached (caching : config.enableCaching = false) (calls : List (Visit (Call f))) :
    (ContextAssembler.mk config {}).run hashes calls = ⟨config, {}⟩ := by
  induction calls using List.reverseRecOn with
  | nil => rfl
  | append_singleton earlier call ih =>
    rw [run_concat, ih]
    simp [ContextAssembler.assembleContext, caching]

theorem assemble_view {c d : Call f} (query : c.queryEmbedding = d.queryEmbedding) (sources : c.sources = d.sources)
    (budget : c.tokenBudget.getD config.defaultTokenBudget = d.tokenBudget.getD config.defaultTokenBudget) :
    (config.assemble hashes c).view =
      (config.assembleContextInternal hashes d.queryEmbedding d.sources d.tokenBudget).view := by
  simp only [AssemblerConfig.assemble, AssemblerConfig.assembleContextInternal, query, sources, budget,
    Option.getD_some]

theorem transparent_of_attributed {earlier : List (Visit (Call f))}
    {call : Visit (Call f)} (attributed : config.Attributed hashes earlier call) :
    ((ContextAssembler.mk config {}).run hashes earlier).Transparent hashes call := by
  intro hit
  cases caching : config.enableCaching with
  | false =>
    rw [run_uncached caching] at hit
    simp [ContextAssembler.assembleContext, caching] at hit
  | true =>
    rw [run_cached caching] at hit ⊢
    let assembler : ContextAssembler f := ⟨config,
      after config.ttl (config.cacheKey hashes) (fun v => config.assemble hashes v.args) earlier⟩
    obtain ⟨_, answers⟩ := assembleContext_cached (a := assembler) caching call
    obtain ⟨kept, answer, shape⟩ := answers _ (by rw [← hit])
    rw [answer_eq, Option.map_eq_some_iff] at answer
    obtain ⟨source, served, made⟩ := answer
    obtain ⟨query, sources⟩ := attributed source served
    rw [shape]
    subst made
    exact assemble_view query sources (congrArg CacheKey.tokenBudget (origin_key served))

end

/-- In a run where every call answered by the entry of another asks the same of the same sources, the
cache cannot be told from none. -/
theorem cache_transparent (hashes : Hashes f) (config : AssemblerConfig f) (calls : List (Visit (Call f)))
    (attributed : ∀ earlier call later, calls = earlier ++ call :: later → config.Attributed hashes earlier call) :
    ∀ earlier call later, calls = earlier ++ call :: later →
      ((ContextAssembler.mk config {}).run hashes earlier).Transparent hashes call :=
  fun earlier call later split => transparent_of_attributed (attributed earlier call later split)

section Samples

/-- Arithmetic without rounding. -/
def exact : Float where
  F := Rat
  literal := id
  ofNat := fun n => n
  add := (· + ·)
  sub := (· - ·)
  mul := (· * ·)
  div := (· / ·)
  sqrt := id
  min := min
  sum := List.sum
  le := fun a b => a ≤ b
  beq := fun a b => a = b
  partialCmp := fun a b => some (if a < b then .lt else if a = b then .eq else .gt)
  floor := fun a => UInt32.ofNat a.floor.toNat

def unhashed : Hashes exact where
  embedding := fun _ => 0
  computeXxhash64 := id

def sentence (id content : String) : SummarySource exact where
  entryId := id
  layer := .session
  summaries := fun depth => if depth = .sentence then some ⟨content, 20, "hash", none⟩ else none
  contextVector := none
  fullContent := none
  fullContentTokens := none
  currentSourceContent := none
  variantRole := none

/-- A call without a query, a second after the one before. -/
def asks (sources : List (SummarySource exact)) : Visit (Call exact) :=
  ⟨⟨none, sources, none, 1⟩, 10 ^ 9, 10 ^ 6, 10 ^ 6⟩

theorem repeated_question_answered : ((ContextAssembler.mk (AssemblerConfig.default exact) {}).run unhashed
        [asks [sentence "acme" "Acme buys Globex"]]).Transparent unhashed
      (asks [sentence "acme" "Acme buys Globex"]) := by
  refine cache_transparent unhashed (AssemblerConfig.default exact)
    [asks [sentence "acme" "Acme buys Globex"], asks [sentence "acme" "Acme buys Globex"]] ?_ _ _ [] rfl
  intro earlier call later split source served
  rcases earlier with _ | ⟨first, _ | ⟨second, rest⟩⟩
  · cases served
  · simp only [List.cons_append, List.nil_append, List.cons.injEq] at split
    obtain ⟨rfl, rfl, rfl⟩ := split
    cases served
    exact ⟨rfl, rfl⟩
  · simp at split

/-- Two tenants ask without a query, a second apart, and the second is shown the plan of the first. -/
theorem second_tenant_sees_first : ¬ ((ContextAssembler.mk (AssemblerConfig.default exact) {}).run unhashed
        [asks [sentence "acme" "Acme buys Globex"]]).Transparent unhashed
      (asks [sentence "globex" "Globex hires"]) := by
  decide +kernel

end Samples

end Aeterna.Context
