import GpuInference.DelimitedText
import GpuInference.PythonBase
import GpuInference.ShellWords

/-!
The command that starts the vLLM server. It is printed before it is executed; whoever runs the printed line runs the same
command.
-/

namespace GpuInference

/-- The settings of the server; the share of the memory is the text of the float. -/
structure VllmSettings where
  modelPath : String
  host : String
  port : Int
  servedModelName : Option String
  modelIdsRaw : String
  tensorParallelSize : Int
  maxModelLen : Int
  gpuMemoryUtilization : String
  maxNumSeqs : Int
  maxNumBatchedTokens : Int

namespace VllmSettings

/-- `Settings.model_ids`. -/
def modelIds (self : VllmSettings) : List String :=
  let (parts, last) := Delimited.split ',' self.modelIdsRaw.toList
  ((parts ++ [last]).map fun modelId => strip (String.ofList modelId)).filter fun modelId => modelId ≠ ""

/-- `Settings.vllm_served_model`. -/
def servedModel (self : VllmSettings) : String :=
  match self.servedModelName with
  | none => self.modelIds.headD self.modelPath
  | some name => if name = "" then self.modelIds.headD self.modelPath else name

end VllmSettings

/-- `build_vllm_serve_command`. -/
def buildVllmServeCommand (settings : VllmSettings) : List String :=
  ["vllm", "serve", settings.modelPath,
    "--host", settings.host,
    "--port", toString settings.port,
    "--served-model-name", settings.servedModel,
    "--tensor-parallel-size", toString settings.tensorParallelSize,
    "--max-model-len", toString settings.maxModelLen,
    "--gpu-memory-utilization", settings.gpuMemoryUtilization,
    "--max-num-seqs", toString settings.maxNumSeqs,
    "--max-num-batched-tokens", toString settings.maxNumBatchedTokens]

/-- `command_to_shell`. -/
def commandToShell (command : List String) : String := String.ofList (Shell.join (command.map String.toList))

/-- `main` of `run_vllm`: what is printed, and what is executed then. -/
def runVllm (settings : VllmSettings) : String × List String :=
  (commandToShell (buildVllmServeCommand settings), buildVllmServeCommand settings)

/-- The words that a shell reads of a line. -/
def shellWords (line : String) : Option (List String) :=
  (Shell.words .none none line.toList).map fun words => words.map String.ofList

theorem shellWords_commandToShell (command : List String) : shellWords (commandToShell command) = some command := by
  have hwords : (command.map String.toList).map String.ofList = command := by
    rw [List.map_map]
    exact List.map_id'' (fun word => String.ofList_toList) command
  rw [shellWords, commandToShell, String.toList_ofList, Shell.words_join, Option.map_some, hwords]

/-- **The execution semantics is unchanged.** The line that is printed for a command splits into the same words, for the
settings as well as for any words. A shell runs these words unless the first one is special to it, like `if` or `A=b`;
that of the settings is `vllm`. -/
theorem printed_command_executed :
    (∀ command : List String, shellWords (commandToShell command) = some command) ∧
      ∀ settings : VllmSettings, shellWords (runVllm settings).1 = some (runVllm settings).2 :=
  ⟨shellWords_commandToShell, fun _ => shellWords_commandToShell _⟩

end GpuInference
