import ClassAtlas.Analysis.Run
import ClassAtlas.Proofs.Session
import ClassAtlas.Source.Build

/-!
The stages of an analysis, from finding the classes to writing diagrams and tables, are made of steps
that do not touch what is outside. Only what a caller brings along can: a build tool, a reader of
sources and a registry.
-/
namespace ClassAtlas

open Act

variable {σ τ : Type} {given : (α : Type) → Act σ α → Prop}

namespace Classpath

theorem BuildTool.made_run (tool : BuildTool) (programs : Outside.Programs) (dir : String)
    (args : List String) : Made given (tool.run programs dir args) := by
  unfold run
  refine .bind (.log _) fun _ => .bind .session fun s => .bind (.logAll _) fun _ => ?_
  dsimp only
  split
  · exact .pure _
  all_goals exact .fail rfl

theorem made_listedDependencies (root : String) : Made given (listedDependencies root) := by
  unfold listedDependencies
  refine .bind .disk fun d => ?_
  split
  · exact .bind (.log _) fun _ => .pure _
  · dsimp only
    split
    · exact .bind (.log _) fun _ => .pure _
    · exact .pure _

theorem made_keepDependencies (globs : List Text.Regex) (paths : List String) :
    Made given (keepDependencies globs paths) := by
  induction paths with
  | nil => exact .pure _
  | cons path more ih =>
    unfold keepDependencies
    split
    · exact .bind (.log _) fun _ => ih
    · exact .bind ih fun _ => .pure _

variable {build : Option (Build σ)}

theorem mem_of_builder? {d : File.Disk} {options : Options} {root : String} {run : Build σ}
    (h : builder? d build options root = some run) : run ∈ build := by
  unfold builder? at h
  split at h
  · exact h
  · cases h

theorem made_findClasses (hbuild : ∀ run ∈ build, ∀ dir args, Made given (run dir args))
    (options : Options) (root : String) : Made given (findClasses build options root) := by
  unfold findClasses
  refine .bind .disk fun d => ?_
  split
  · exact .pure _
  · exact .pure _
  · next run _ hrun =>
    refine .bind (.log _) fun _ => .bind (hbuild run (mem_of_builder? hrun) _ _) fun _ => ?_
    exact .bind .disk fun _ => .pure _

theorem made_dependencies (hbuild : ∀ run ∈ build, ∀ dir args, Made given (run dir args))
    (options : Options) (root : String) : Made given (dependencies build options root) := by
  have hkeep : Made given (do
      keepDependencies (Glob.compile options.excludeJars) (← listedDependencies root) :
        Act σ (List String)) :=
    .bind (made_listedDependencies _) fun _ => made_keepDependencies _ _
  unfold dependencies
  refine .bind .disk fun d => ?_
  split
  · next run hrun => exact .bind (hbuild run (mem_of_builder? hrun) _ _) fun _ => hkeep
  · exact hkeep

theorem made_resolve (hbuild : ∀ run ∈ build, ∀ dir args, Made given (run dir args))
    (options : Options) (repoRoot : String) : Made given (resolve build options repoRoot) := by
  unfold resolve
  refine .bind .disk fun d => .bind (made_findClasses hbuild _ _) fun dir => ?_
  split
  · exact .fail rfl
  · dsimp only
    split
    · exact .bind (made_dependencies hbuild _ _) fun _ => .bind (.log _) fun _ => .pure _
    · exact .bind (.pure _) fun _ => .bind (.log _) fun _ => .pure _

theorem made_follow {visit : τ' → ClassUnit → Act σ τ'} (hvisit : ∀ t u, Made given (visit t u))
    (steps : List Step) (t : τ') : Made given (follow visit steps t) := by
  induction steps generalizing t with
  | nil => exact .pure _
  | cons step more ih =>
    cases step with
    | checkpoint => exact .bind .checkpoint fun _ => ih t
    | note r => exact .bind (.log r) fun _ => ih t
    | unit u => exact .bind (hvisit t u) ih

theorem made_walk {visit : τ' → ClassUnit → Act σ τ'} (hvisit : ∀ t u, Made given (visit t u))
    (desc : Descriptor) (init : τ') : Made given (walk desc visit init) :=
  .bind .disk fun _ => made_follow hvisit _ _

end Classpath

namespace Source

theorem made_addFiles (f : Scan.Filter) (paths : List String) (g : ClassGraph) :
    Made given (addFiles f paths g) := by
  induction paths generalizing g with
  | nil => exact .pure _
  | cons path more ih =>
    unfold addFiles
    refine .bind .checkpoint fun _ => .bind .disk fun d => ?_
    split
    · exact ih _
    · exact .bind (.log _) fun _ => ih g

theorem made_build (root : String) (packages : List String) : Made given (build root packages) :=
  .bind .disk fun _ => .bind (made_addFiles _ _ _) fun _ => .bind (.log _) fun _ => .pure _

end Source

namespace Scan

theorem made_scanStructure (desc : Classpath.Descriptor) (packages : List String) :
    Made given (scanStructure desc packages) :=
  .bind (Classpath.made_walk (fun _ _ => .bind (.logAll _) fun _ => .pure _) _ _) fun _ =>
    .bind (.log _) fun _ => .pure _

theorem made_scanCalls (desc : Classpath.Descriptor) (packages : List String) :
    Made given (scanCalls desc packages) :=
  .bind (Classpath.made_walk (fun _ _ => .bind (.logAll _) fun _ => .pure _) _ _) fun _ =>
    .bind (.log _) fun _ => .pure _

end Scan

namespace Export

theorem made_prepareDir (what dir : String) : Made given (prepareDir what dir) := by
  unfold prepareDir
  refine .bind .disk fun d => ?_
  split
  · exact .setDisk _
  · exact .fail rfl

theorem made_writeOutput (action dir name text : String) :
    Made given (writeOutput action dir name text) := by
  unfold writeOutput
  refine .bind .disk fun d => ?_
  split
  · exact .bind (.setDisk _) fun _ => .pure _
  · exact .fail rfl

theorem made_writeOutputs (action dir : String) (files : List (String × String)) :
    Made given (writeOutputs action dir files) := by
  induction files with
  | nil => exact .pure _
  | cons file more ih =>
    exact .bind (made_writeOutput _ _ _ _) fun _ => .bind ih fun _ => .pure _

theorem made_write (dir : String) (g : ClassGraph) : Made given (write dir g) :=
  .bind (made_prepareDir _ _) fun _ => .bind (made_writeOutput _ _ _ _) fun _ =>
    .bind (made_writeOutputs _ _ _) fun _ => .pure _

end Export

theorem Diagram.made_write (dir : String) (g : ClassGraph) (options : Options) :
    Made given (write dir g options) :=
  .bind (Export.made_prepareDir _ _) fun _ => Export.made_writeOutputs _ _ _

namespace Analysis

theorem made_fingerprintOf (runId : String) (desc : Classpath.Descriptor) :
    Made given (fingerprintOf runId desc) := by
  unfold fingerprintOf
  refine .bind .disk fun d => ?_
  split
  · exact .pure _
  · exact .bind (.log _) fun _ => .pure _

/-- The build tool and the reader of sources keep aside. -/
structure Equipment.Aside (view : σ → τ) (equipment : Equipment σ) : Prop where
  build : ∀ run ∈ equipment.build, ∀ dir args, Act.Aside view (run dir args)
  sources : ∀ read ∈ equipment.sources, ∀ root packages, Act.Aside view (read root packages)

variable {equipment : Equipment σ}

theorem made_sourceGraph
    (hsources : ∀ read ∈ equipment.sources, ∀ root packages, Made given (read root packages))
    (repoRoot : String) (request : Request) :
    Made given (sourceGraph equipment repoRoot request) := by
  unfold sourceGraph
  split
  · refine .bind .disk fun d => ?_
    split
    · exact .pure _
    · exact .fail rfl
  · split
    · next read hread =>
      split
      · exact hsources read hread _ _
      · exact .pure _
    · exact .pure _

theorem made_previousRun
    (hfind : ∀ registry ∈ equipment.registry, ∀ fingerprint,
      Made given (registry.find? fingerprint))
    (runId fingerprint : String) : Made given (previousRun equipment runId fingerprint) := by
  unfold previousRun
  split
  · exact .pure _
  · next registry hregistry =>
    split
    · exact .pure _
    · refine .bind (.attempt (hfind registry hregistry _)) fun found => ?_
      split
      · exact .bind (.log _) fun _ => .pure _
      · exact .pure _
      · exact .bind (.log _) fun _ => .pure _

/-- All that happens between the two records of a run is made of basic steps, of what the build tool
and the reader of sources do, and of looking up and saving in the registry. -/
theorem made_pipeline
    (hbuild : ∀ run ∈ equipment.build, ∀ dir args, Made given (run dir args))
    (hsources : ∀ read ∈ equipment.sources, ∀ root packages, Made given (read root packages))
    (hfind : ∀ registry ∈ equipment.registry, ∀ fingerprint,
      Made given (registry.find? fingerprint))
    (hsave : ∀ registry ∈ equipment.registry, ∀ id g, Made given (registry.save id g))
    (runId repoRoot outputDir : String) (request : Request) :
    Made given (pipeline equipment runId repoRoot outputDir request) := by
  unfold pipeline
  refine .bind (Classpath.made_resolve hbuild _ _) fun desc => ?_
  refine .bind (made_fingerprintOf _ _) fun fingerprint => ?_
  refine .bind (made_previousRun hfind _ _) fun previous => ?_
  refine .bind (made_sourceGraph hsources _ _) fun source => ?_
  refine .bind (Scan.made_scanStructure _ _) fun compiled => ?_
  refine .bind (Scan.made_scanCalls _ _) fun calls => ?_
  refine .bind (.log _) fun _ => .bind .checkpoint fun _ => ?_
  refine .bind (Diagram.made_write _ _ _) fun diagrams => ?_
  refine .bind (Export.made_write _ _) fun exports => ?_
  split
  · next registry hregistry => exact .bind (hsave registry hregistry _ _) fun _ => .pure _
  · exact .pure _

end Analysis
end ClassAtlas
