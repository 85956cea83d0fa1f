import FormatFuzz.Command.Program

namespace FormatFuzz

def CorpusStore.paths (s : CorpusStore) : List Path :=
  [s.inputPath, s.backupPath, s.firstOutputPath, s.secondOutputPath, s.optionsPath]

namespace Surroundings

def configPaths (around : Surroundings) : List Path :=
  [around.cwd, Path.ofString around.home].map fun p =>
    (Config.stateDirectory p).child Config.fileName

/-- The corpus directory that a command with some arguments uses, given the configuration. -/
def corpusPaths (around : Surroundings) (config : Config) (args : List String) : List Path :=
  match Arguments.read RunArguments.rules true false args with
  | none => []
  | some a =>
    let setting := (a.value? "--corpus-dir") <|> config.corpusDir
    match Config.corpusDirectory setting around.cwd around.home with
    | none => []
    | some directory => CorpusStore.paths { directory }

def initPaths (around : Surroundings) (args : List String) : List Path :=
  ("." :: args).map fun a =>
    (Config.stateDirectory (around.cwd.join (.ofString a)).resolved).child Config.fileName

def paths (around : Surroundings) (config : Config) (args : List String) : List Path :=
  around.configPaths ++ around.corpusPaths config args ++ around.initPaths args

end Surroundings

def Place.way (p : Place) : List Place := (List.range p.length).map fun i => p.take (i + 1)

end FormatFuzz
