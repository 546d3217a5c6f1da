import Neurlang.Data.Json
import Neurlang.Data.Instruction
import Neurlang.Data.Dataset
import Neurlang.Data.Binary
import Neurlang.Train.EpochLoop
import Neurlang.Torch.Tensor
import Neurlang.Torch.Functional
import Neurlang.Torch.Layers
import Neurlang.Torch.Rows
import Neurlang.Model.Attention
import Neurlang.Model.Parallel
import Neurlang.Model.Shapes
import Neurlang.Model.BatchIndependence
import Neurlang.Model.Loss
import Neurlang.Model.Tokenize
import Neurlang.Train.Evaluate
import Neurlang.Model.Inference
import Neurlang.Train.Loader
import Neurlang.Train.TrainingFile
import Neurlang.Gen.Registers
import Neurlang.Gen.DiversePatterns
import Neurlang.Gen.Generate
import Neurlang.Gen.TrainingData
import Neurlang.Gen.ExampleFile
