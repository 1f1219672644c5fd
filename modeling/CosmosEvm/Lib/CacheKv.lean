import CosmosEvm.Lib.SnapshotStack
import Mathlib.Data.List.Induction

/-!
# Key-value caches in layers

A cache layer records writes and deletions over a parent it has not yet changed.
-/

namespace CosmosEvm

structure CacheKv (Key Value : Type) where
  Layer : Type
  newStore : Layer
  set : Layer → Key → Value → Layer
  delete : Layer → Key → Layer
  view : Layer → (Key → Option Value) → Key → Option Value
  entries : Layer → List (Key × Option Value)

namespace CacheKv

variable {Key Value : Type} [DecidableEq Key] (contents : Key → Option Value)

def applyEntries (entries : List (Key × Option Value)) : Key → Option Value :=
  entries.foldl (fun contents entry => Function.update contents entry.1 entry.2) contents

theorem applyEntries_append_singleton
    (entries : List (Key × Option Value)) (key : Key) (value : Option Value) :
    applyEntries contents (entries ++ [(key, value)]) =
      Function.update (applyEntries contents entries) key value := by
  simp [applyEntries]

variable (cache : CacheKv Key Value)

def put (layer : cache.Layer) (key : Key) : Option Value → cache.Layer
  | some value => cache.set layer key value
  | none => cache.delete layer key

def putEntries (layer : cache.Layer) (entries : List (Key × Option Value)) : cache.Layer :=
  entries.foldl (fun layer entry => cache.put layer entry.1 entry.2) layer

structure Lawful : Prop where
  view_newStore : ∀ contents, cache.view cache.newStore contents = contents
  view_set : ∀ layer key value contents, cache.view (cache.set layer key value) contents =
    Function.update (cache.view layer contents) key (some value)
  view_delete : ∀ layer key contents, cache.view (cache.delete layer key) contents =
    Function.update (cache.view layer contents) key none
  applyEntries_entries : ∀ layer contents,
    applyEntries contents (cache.entries layer) = cache.view layer contents

variable {cache}

theorem Lawful.view_put (hcache : cache.Lawful) (layer : cache.Layer) (key : Key)
    (value : Option Value) (contents : Key → Option Value) :
    cache.view (cache.put layer key value) contents =
      Function.update (cache.view layer contents) key value := by
  cases value with
  | none => exact hcache.view_delete layer key contents
  | some value => exact hcache.view_set layer key value contents

theorem Lawful.view_putEntries (hcache : cache.Lawful) (layer : cache.Layer)
    (entries : List (Key × Option Value)) (contents : Key → Option Value) :
    cache.view (cache.putEntries layer entries) contents =
      applyEntries (cache.view layer contents) entries := by
  induction entries generalizing layer with
  | nil => rfl
  | cons entry entries ih =>
    change cache.view (cache.putEntries (cache.put layer entry.1 entry.2) entries) contents = _
    rw [ih, hcache.view_put]
    rfl

variable (cache) in
def viewAll (layers : List cache.Layer) : Key → Option Value :=
  layers.foldl (fun contents layer => cache.view layer contents) contents

variable (cache) in
/-- Each layer written to the one below it, from the top down, until one layer is left. -/
def flatten : cache.Layer → List cache.Layer → cache.Layer
  | layer, [] => layer
  | layer, above :: layers => cache.putEntries layer (cache.entries (flatten above layers))

theorem Lawful.view_flatten (hcache : cache.Lawful) (layer : cache.Layer)
    (layers : List cache.Layer) (contents : Key → Option Value) :
    cache.view (cache.flatten layer layers) contents =
      cache.viewAll (cache.view layer contents) layers := by
  induction layers generalizing layer contents with
  | nil => rfl
  | cons above layers ih =>
    rw [flatten, hcache.view_putEntries, hcache.applyEntries_entries, ih]
    rfl

variable (cache) in
def views : (Key → Option Value) → List cache.Layer → List (Key → Option Value)
  | _, [] => []
  | contents, layer :: layers =>
    cache.view layer contents :: views (cache.view layer contents) layers

omit [DecidableEq Key] in
theorem length_views (layers : List cache.Layer) :
    (cache.views contents layers).length = layers.length := by
  induction layers generalizing contents with
  | nil => rfl
  | cons layer layers ih => simp [views, ih]

omit [DecidableEq Key] in
theorem views_append_singleton (layers : List cache.Layer) (layer : cache.Layer) :
    cache.views contents (layers ++ [layer]) =
      cache.views contents layers ++ [cache.view layer (cache.viewAll contents layers)] := by
  induction layers generalizing contents with
  | nil => rfl
  | cons below layers ih =>
    simp only [List.cons_append, views, ih]
    rfl

omit [DecidableEq Key] in
theorem take_views (layers : List cache.Layer) (n : Nat) :
    (cache.views contents layers).take n = cache.views contents (layers.take n) := by
  induction layers generalizing contents n with
  | nil => simp [views]
  | cons layer layers ih =>
    cases n with
    | zero => rfl
    | succ n => simp [views, ih]

omit [DecidableEq Key] in
theorem getLast?_views (layers : List cache.Layer) :
    (cache.views contents layers).getLast?.getD contents = cache.viewAll contents layers := by
  induction layers using List.reverseRecOn with
  | nil => rfl
  | append_singleton layers layer _ =>
    rw [views_append_singleton]
    simp [viewAll]

def log (Key Value : Type) [DecidableEq Key] : CacheKv Key Value where
  Layer := List (Key × Option Value)
  newStore := []
  set layer key value := layer ++ [(key, some value)]
  delete layer key := layer ++ [(key, none)]
  view layer contents := applyEntries contents layer
  entries layer := layer

theorem log_lawful (Key Value : Type) [DecidableEq Key] : (log Key Value).Lawful where
  view_newStore _ := rfl
  view_set layer key value contents :=
    applyEntries_append_singleton contents layer key (some value)
  view_delete layer key contents := applyEntries_append_singleton contents layer key none
  applyEntries_entries _ _ := rfl

end CacheKv

end CosmosEvm
