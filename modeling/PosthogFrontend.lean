import PosthogFrontend.Js.Runtime
import PosthogFrontend.Experiments.FlagKey
import PosthogFrontend.Experiments.Variants
import PosthogFrontend.Experiments.Form
import PosthogFrontend.Experiments.Logic
import PosthogFrontend.Experiments.Runs
import PosthogFrontend.Experiments.Save
import PosthogFrontend.Experiments.Validation
import PosthogFrontend.Experiments.Effects
import PosthogFrontend.Experiments.Requests
import PosthogFrontend.Evaluations.Heap
import PosthogFrontend.Evaluations.Logic
import PosthogFrontend.Evaluations.Agreement
import PosthogFrontend.Evaluations.Editor
import PosthogFrontend.Evaluations.System
import PosthogFrontend.Evaluations.StoreIds
import PosthogFrontend.Evaluations.Interleavings
import PosthogFrontend.Evaluations.Catalog
