import FilterAlgebra.Shell

open FilterAlgebra

def readFile (path : String) : IO (Except FileFault ByteArray) := do
  if path.any (· == '\x00') then return .error .noName
  try
    return .ok (← IO.FS.readBinFile path)
  catch e =>
    match e with
    | .noFileOrDirectory .. => return .error .missing
    | .inappropriateType .. => return .error .directory
    | e => return .error (.other (toString e))

def configOf (args : List String) : IO (Except ConfigFailure Config) := do
  match args with
  | [] => return .ok {}
  | path :: _ => return Config.ofFile path (← readFile path)

/-- Serves line by line. Tells whether the session ended in order. -/
partial def serve (c : Config) (input : IO.FS.Stream) (output : IO.FS.Stream) : IO Bool := do
  let line ← input.getLine
  if line.isEmpty then return true
  let line := if line.endsWith "\n" then line.toList.dropLast else line.toList
  match Text.correct? line with
  | none => return false
  | some line =>
    match Shell.Command.ofLine (.ofList line) with
    | .nothing => serve c input output
    | .quit => return true
    | .evaluate s =>
      let answer := Shell.answer c s
      output.putStr answer.output
      output.flush
      if let .refused f := answer then IO.eprintln ("error: " ++ f.message)
      serve c input output

def main (args : List String) : IO UInt32 := do
  match ← configOf args with
  | .error f =>
    IO.eprintln ("Error: " ++ f.message)
    return 1
  | .ok c =>
    IO.println Shell.banner
    return if ← serve c (← IO.getStdin) (← IO.getStdout) then 0 else 101
