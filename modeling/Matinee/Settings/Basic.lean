/-
# `Matinee.Settings.Basic` — what can be set from outside

Settings come from the environment.  The case of a variable's name does not
matter, so two variables may mean one setting, which is a fault.  What is not set
has a default.
-/
import Matinee.Number.Whole
import Matinee.Settings.EnvFile
import Matinee.Text.LowerCase

namespace Matinee

structure Settings where
  remoteKey : Option String
  remoteApi : String
  remoteImages : String
  remoteLanguage : String
  /-- Where the catalog, the ratings and the links are: paths or addresses. -/
  catalog : String
  ratings : String
  links : String
  storeUrl : Option String
  /-- Stands in front of the keys of the watch-list. -/
  space : Option String
  recommender : String
  /-- How many movies a search finds at most, unless it asks for another number. -/
  searchLimit : Nat
  /-- The pause of typing after which a live search begins, in milliseconds. -/
  pause : Nat
  host : String
  tcpPort : Nat
deriving DecidableEq, Repr

namespace Settings

def defaults : Settings where
  remoteKey := none
  remoteApi := "https://api.themoviedb.org/3"
  remoteImages := "https://image.tmdb.org/t/p/w500"
  remoteLanguage := "es-ES"
  catalog := "data/movies.csv"
  ratings := "data/ratings.csv"
  links := "data/links.csv"
  storeUrl := none
  space := none
  recommender := "http://localhost:8080"
  searchLimit := 20
  pause := 300
  host := "127.0.0.1"
  tcpPort := 3000

/-- Why settings cannot be taken from the environment. -/
inductive Fault where
  | notWhole (fault : Number.WholeFault) (value name : String)
  | repeated (setting : String)
deriving DecidableEq, Repr

def Fault.message (f : Fault) : String :=
  "Failed to load config: " ++ match f with
    | .notWhole fault value name =>
      fault.message ++ " while parsing value '" ++ value ++ "' provided by " ++ name
    | .repeated setting => "duplicate field \x60" ++ setting ++ "\x60"

/-- A setting: the name of its variable in small letters, and how a value of that
variable changes the settings. -/
structure Variable where
  name : String
  apply : Settings → String → Except Number.WholeFault Settings

def text (name : String) (put : Settings → String → Settings) : Variable :=
  ⟨name, fun s v => .ok (put s v)⟩

def whole (name : String) (max : Nat) (put : Settings → Nat → Settings) : Variable :=
  ⟨name, fun s v => (Number.readWhole max v.toList).map (put s)⟩

def allVariables : List Variable := [
  text "tmdb_api_key" fun s v => { s with remoteKey := some v },
  text "tmdb_api_url" fun s v => { s with remoteApi := v },
  text "tmdb_image_url" fun s v => { s with remoteImages := v },
  text "tmdb_language" fun s v => { s with remoteLanguage := v },
  text "catalog_source" fun s v => { s with catalog := v },
  text "ratings_source" fun s v => { s with ratings := v },
  text "links_source" fun s v => { s with links := v },
  text "redis_url" fun s v => { s with storeUrl := some v },
  text "store_namespace" fun s v => { s with space := some v },
  text "recommender_url" fun s v => { s with recommender := v },
  whole "search_limit" (2 ^ 64 - 1) fun s v => { s with searchLimit := v },
  whole "search_debounce_ms" (2 ^ 64 - 1) fun s v => { s with pause := v },
  text "host" fun s v => { s with host := v },
  whole "port" (2 ^ 16 - 1) fun s v => { s with tcpPort := v }]

/-- The settings after the variables of an environment, one after another; `seen`
settings have been met before. -/
def read (s : Settings) (seen : List String) : Environment → Except Fault Settings
  | [] => .ok s
  | (name, value) :: rest =>
    match allVariables.find? fun v => v.name.toList == Text.lower name.toList with
    | none => read s seen rest
    | some v =>
      if seen.contains v.name then .error (.repeated v.name)
      else match v.apply s value with
        | .ok s' => read s' (v.name :: seen) rest
        | .error fault => .error (.notWhole fault value name)

def ofEnvironment (env : Environment) : Except Fault Settings := read defaults [] env

/-- The settings from the environment and, if there is one, a file of
assignments. -/
def load (env : Environment) (file : Option (List UInt8)) : Except Fault Settings :=
  ofEnvironment (match file with
    | some content => EnvFile.load env content
    | none => env)

/-- The key that stands in the sample file for a key of one's own. -/
def placeholderKey : String := "YOUR_API_KEY_HERE"

/-- The key can be used. -/
def isConfigured (key : String) : Bool :=
  !Text.isAllBlank key.toList && key != placeholderKey

/-- The trimmed key of the remote catalog, if it can be used; without one the
remote catalog is not asked. -/
def credential (s : Settings) : Option String :=
  (s.remoteKey.map fun key => String.ofList (Text.trim key.toList)).filter isConfigured

end Settings

end Matinee
